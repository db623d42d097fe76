import ContractSurvey.CommandLine.Request
import ContractSurvey.Proofs.Sequence.Outcome
import Mathlib.Data.List.Basic

/-!
# Proofs — CommandLine — Value

What the words of a level give its options.  The texts of an option stand behind its name, in the
same word or in the next one (`textsOf`); behind two dashes there are only plain words.

* `walk_step`: one step of the reading leaves the values as they are, or enters one text for one
  option, and passes over no other text.
* `foldlM_textsOf_of_walk`: a part of the values that one option reads, and no other one touches, is
  what the texts of that option make of it, one after the other.  The induction is on the number of
  words, since a step may take two of them.
* `read_of_parse`: so a level that is read to its end has read the last text.
-/

namespace ContractSurvey.CommandLine

/-! ### Texts -/

/-- The text that a word gives an option, by itself or together with the next one. -/
def Word.textFor? (name : String) (w : Word) (next : Option Word) : Option String :=
  match w.role with
  | .option n .none => if n = name then next.map (·.text) else none
  | .option n (.marked value) | .option n (.bare value) => if n = name then some value else none
  | _ => none

/-- The texts that a row of words gives an option, in their order. -/
def textsOf (name : String) : List Word → List String
  | [] => []
  | w :: rest => (w.textFor? name rest.head?).toList ++ textsOf name rest

section

variable {name n text : String} {w : Word} {rest : List Word} {a : Attachment}

theorem textsOf_cons_of_eq_none (h : w.textFor? name rest.head? = none) :
    textsOf name (w :: rest) = textsOf name rest := by
  rw [textsOf, h]
  rfl

theorem textsOf_cons_of_eq_some (h : w.textFor? name rest.head? = some text) :
    textsOf name (w :: rest) = text :: textsOf name rest := by
  rw [textsOf, h]
  rfl

theorem textsOf_cons_plain (h : w.role = .plain) :
    textsOf name (w :: rest) = textsOf name rest := by
  refine textsOf_cons_of_eq_none ?_
  rw [Word.textFor?, h]

theorem textsOf_cons_separator :
    textsOf name (⟨text, .separator⟩ :: rest) = textsOf name rest := rfl

theorem textsOf_cons_option_of_ne (h : n ≠ name) :
    textsOf name (⟨text, .option n a⟩ :: rest) = textsOf name rest := by
  refine textsOf_cons_of_eq_none ?_
  cases a <;> exact if_neg h

/-- Plain words give no option anything. -/
theorem textsOf_plain (name : String) (texts : List String) :
    textsOf name (texts.map fun t => ⟨t, .plain⟩) = [] := by
  induction texts with
  | nil => rfl
  | cons t ts ih => exact ih

end

/-! ### Words behind two dashes -/

/-- Behind two dashes every word is plain. -/
def PlainBehind (ws : List Word) : Prop :=
  ws.Pairwise fun v w => v.role = .separator → w.role = .plain

/-- No word is taken for the two dashes by its text. -/
theorem role_ne_separator {names : List String} {text : String} {r : Role}
    (h : role names text = .ok r) : r ≠ .separator := by
  rintro rfl
  unfold role at h
  grind

theorem plainBehind_words {names texts : List String} {ws : List Word}
    (h : words names texts = .ok ws) : PlainBehind ws := by
  induction texts generalizing ws with
  | nil =>
      cases h
      exact .nil
  | cons t ts ih =>
      rw [words] at h
      split at h
      · cases h
        have hplain : PlainBehind (ts.map fun t => ⟨t, .plain⟩) :=
          List.pairwise_map.mpr (List.pairwise_of_forall fun _ _ _ => rfl)
        refine .cons (fun w hw _ => ?_) hplain
        obtain ⟨_, -, rfl⟩ := List.mem_map.mp hw
        rfl
      · obtain ⟨r, hr, h⟩ := bind_eq_ok_iff.mp h
        obtain ⟨rest, hrest, h⟩ := bind_eq_ok_iff.mp h
        cases h
        exact .cons (fun w _ hseparator => absurd hseparator (role_ne_separator hr)) (ih hrest)

namespace Grammar

variable {α β γ : Type} {g : Grammar α β}

/-! ### One step -/

/-- What a step of the reading does to the values: it leaves them, or it enters one text. -/
inductive Step (g : Grammar α β) (ws ws' : List Word) (values values' : α) : Prop
  | kept (same : values' = values)
      (texts : ∀ o ∈ g.options, textsOf o.name ws = textsOf o.name ws')
  | entered (o : ValueOption α) (text : String) (mem : o ∈ g.options)
      (enter : o.enter (valueOf? g.keepsDashes text) values = .ok values')
      (own : textsOf o.name ws = text :: textsOf o.name ws')
      (others : ∀ o' ∈ g.options, o'.name ≠ o.name → textsOf o'.name ws = textsOf o'.name ws')

theorem enter_of_enter_eq_ok {o : ValueOption α} {text : String} {p p' : Progress α}
    (h : g.enter o text p = .ok p') :
    o.enter (valueOf? g.keepsDashes text) p.values = .ok p'.values := by
  unfold enter at h
  split at h
  · next values hvalues =>
      cases h
      exact hvalues
  · cases h

theorem values_interrupted (p : Progress α) : p.interrupted.values = p.values := by
  unfold Progress.interrupted
  split <;> rfl

section

variable {text : String} {ws : List Word} {p q : Progress α}

/-- The two dashes and plain words enter nothing. -/
theorem walk_operand (hrest : g.operands ≠ .rest) {r : Role} (hr : r = .separator ∨ r = .plain)
    (hplain : PlainBehind (⟨text, r⟩ :: ws)) (h : g.walk (⟨text, r⟩ :: ws) p = .ok q) :
    ∃ ws' p', ws' <:+ ws ∧ g.walk ws' p' = .ok q ∧ p'.values = p.values ∧
      ∀ name, textsOf name (⟨text, r⟩ :: ws) = textsOf name ws' := by
  rcases hr with rfl | rfl
  · rw [walk.eq_def] at h
    dsimp only at h
    split at h
    · next w rest _ _ =>
        have hw : w.role = .plain := (List.pairwise_cons.mp hplain).1 w List.mem_cons_self rfl
        exact ⟨rest, _, List.suffix_cons w rest, h, rfl, fun name => textsOf_cons_plain hw⟩
    · next w rest _ _ =>
        have hw : w.role = .plain := (List.pairwise_cons.mp hplain).1 w List.mem_cons_self rfl
        exact ⟨rest, _, List.suffix_cons w rest, h, rfl, fun name => textsOf_cons_plain hw⟩
    · exact ⟨_, _, List.suffix_refl _, h, rfl, fun name => textsOf_cons_separator⟩
    · next hoperands _ => exact absurd hoperands hrest
    · exact ⟨_, _, List.suffix_refl _, h, rfl, fun name => textsOf_cons_separator⟩
  · rw [walk.eq_def] at h
    dsimp only at h
    split at h
    · next dashes rest _ _ =>
        exact ⟨rest, _, List.suffix_cons _ rest, h, rfl, fun name => rfl⟩
    · exact ⟨_, _, List.suffix_refl _, h, rfl, fun name => rfl⟩
    · exact ⟨_, _, List.suffix_refl _, h, rfl, fun name => rfl⟩
    · exact ⟨_, _, List.suffix_refl _, h, rfl, fun name => rfl⟩
    · next hoperands _ => exact absurd hoperands hrest
    · exact ⟨_, _, List.suffix_refl _, h, rfl, fun name => rfl⟩

/-- An option of the level enters the text behind its name. -/
theorem walk_option {o : ValueOption α} {a : Attachment}
    (ho : g.options.find? (·.name = o.name) = some o)
    (h : g.walk (⟨text, .option o.name a⟩ :: ws) p = .ok q) :
    ∃ ws' p' value, ws' <:+ ws ∧ g.walk ws' p' = .ok q ∧
      o.enter (valueOf? g.keepsDashes value) p.values = .ok p'.values ∧
      textsOf o.name (⟨text, .option o.name a⟩ :: ws) = value :: textsOf o.name ws' ∧
      ∀ name, o.name ≠ name → textsOf name (⟨text, .option o.name a⟩ :: ws) = textsOf name ws' := by
  rw [walk.eq_def] at h
  dsimp only at h
  split at h
  · cases h
  · rw [ho] at h
    cases a with
    | marked value | bare value =>
        obtain ⟨p', henter, h⟩ := bind_eq_ok_iff.mp h
        exact ⟨ws, p', value, List.suffix_refl ws, h, enter_of_enter_eq_ok henter,
          textsOf_cons_of_eq_some (if_pos rfl), fun name hne => textsOf_cons_option_of_ne hne⟩
    | none =>
        dsimp only at h
        split at h
        · next value rest =>
            obtain ⟨p', henter, h⟩ := bind_eq_ok_iff.mp h
            exact ⟨rest, p', value, List.suffix_cons _ rest, h, enter_of_enter_eq_ok henter,
              textsOf_cons_of_eq_some (if_pos rfl), fun name hne => textsOf_cons_option_of_ne hne⟩
        · cases h

/-- **One step**: a level that reads on behind its operands goes over to a row of words further
behind, and enters the text that stands before it, if there is one. -/
theorem walk_step (hrest : g.operands ≠ .rest) {w : Word} (hplain : PlainBehind (w :: ws))
    (h : g.walk (w :: ws) p = .ok q) :
    ∃ ws' p', ws' <:+ ws ∧ g.walk ws' p' = .ok q ∧ g.Step (w :: ws) ws' p.values p'.values := by
  obtain ⟨text, role⟩ := w
  cases role with
  | unknown =>
      rw [walk] at h
      exact ⟨ws, _, List.suffix_refl ws, h, .kept (values_interrupted p) fun _ _ => rfl⟩
  | separator =>
      obtain ⟨ws', p', hsuffix, h, hvalues, htexts⟩ := walk_operand hrest (.inl rfl) hplain h
      exact ⟨ws', p', hsuffix, h, .kept hvalues fun o _ => htexts o.name⟩
  | plain =>
      obtain ⟨ws', p', hsuffix, h, hvalues, htexts⟩ := walk_operand hrest (.inr rfl) hplain h
      exact ⟨ws', p', hsuffix, h, .kept hvalues fun o _ => htexts o.name⟩
  | option name a =>
      cases hfind : g.options.find? (·.name = name) with
      | none =>
          -- a name that is known but not an option of the level, such as that of the help option
          rw [walk.eq_def] at h
          dsimp only at h
          split at h
          · cases h
          · rw [hfind] at h
            refine ⟨ws, p, List.suffix_refl ws, h, .kept rfl fun o ho => ?_⟩
            have hne := List.find?_eq_none.mp hfind o ho
            exact textsOf_cons_option_of_ne (by simpa [eq_comm] using hne)
      | some o =>
          have hmem := List.mem_of_find?_eq_some hfind
          obtain rfl : o.name = name := by simpa using List.find?_some hfind
          obtain ⟨ws', p', value, hsuffix, h, henter, hown, hothers⟩ := walk_option hfind h
          exact ⟨ws', p', hsuffix, h, .entered o value hmem henter hown
            fun o' _ hne => hothers o'.name hne.symm⟩

end

/-! ### The whole reading -/

/-- The option of this name reads a part of the values, and no other option touches that part. -/
structure Reads (g : Grammar α β) (name : String) (read : Option String → Except String γ)
    (part : α → γ) : Prop where
  own : ∀ o ∈ g.options, o.name = name → ∀ given values values',
    o.enter given values = .ok values' → read given = .ok (part values')
  others : ∀ o ∈ g.options, o.name ≠ name → ∀ given values values',
    o.enter given values = .ok values' → part values' = part values

variable {name : String} {read : Option String → Except String γ} {part : α → γ}

/-- The part of the values that an option reads goes through the texts of that option. -/
theorem foldlM_textsOf_of_walk (hrest : g.operands ≠ .rest) (hread : g.Reads name read part)
    {o : ValueOption α} (ho : o ∈ g.options) (hname : o.name = name) {ws : List Word}
    (hplain : PlainBehind ws) {p q : Progress α} (h : g.walk ws p = .ok q) :
    (textsOf name ws).foldlM (fun _ text => read (valueOf? g.keepsDashes text)) (part p.values) =
      .ok (part q.values) := by
  induction hlength : ws.length using Nat.strongRecOn generalizing ws p with
  | ind n ih =>
      subst hlength hname
      cases ws with
      | nil =>
          rw [walk] at h
          cases h
          rfl
      | cons w ws =>
          obtain ⟨ws', p', hsuffix, h', hstep⟩ := walk_step hrest hplain h
          have hplain' : PlainBehind ws' :=
            (List.pairwise_cons.mp hplain).2.sublist hsuffix.sublist
          have hih := ih ws'.length (Nat.lt_succ_of_le hsuffix.length_le) hplain' h' rfl
          cases hstep with
          | kept same texts => rw [texts o ho, ← same, hih]
          | entered o' text mem enter own others =>
              -- reading a text forgets what the option has read before, so the fold goes on from it
              by_cases hne : o'.name = o.name
              · rw [← hne, own, List.foldlM_cons, hread.own o' mem hne _ _ _ enter, ok_bind, hne,
                  hih]
              · rw [others o ho (Ne.symm hne), ← hread.others o' mem hne _ _ _ enter, hih]

theorem read_of_foldlM_eq_ok {f : String → Except String γ} {texts : List String} {b c : γ}
    {text : String} (h : texts.foldlM (fun _ t => f t) b = .ok c)
    (hlast : texts.getLast? = some text) : f text = .ok c := by
  obtain ⟨before, rfl⟩ := List.getLast?_eq_some_iff.mp hlast
  rw [List.foldlM_append] at h
  obtain ⟨_, -, h⟩ := bind_eq_ok_iff.mp h
  obtain ⟨_, h, hlast⟩ := bind_eq_ok_iff.mp h
  cases hlast
  exact h

theorem parse_eq_ok {args extras : List String} {b : β} (h : g.parse args = .ok (b, extras)) :
    ∃ ws p, words g.names args = .ok ws ∧ g.walk ws { values := g.start } = .ok p ∧
      g.finish p.values p.operands = some b := by
  rw [Grammar.parse] at h
  split at h
  · cases h
  · next ws hws =>
      obtain ⟨p, hwalk, h⟩ := bind_eq_ok_iff.mp h
      split at h
      · next b' hfinish =>
          cases h
          exact ⟨ws, p, hws, hwalk, hfinish⟩
      · cases h

/-- The texts that the arguments of a level give an option. -/
def texts (g : Grammar α β) (name : String) (args : List String) : List String :=
  match words g.names args with
  | .ok ws => textsOf name ws
  | .error _ => []

/-- A level that is read to its end has read the last text of an option. -/
theorem read_of_parse (hrest : g.operands ≠ .rest) (hread : g.Reads name read part)
    {o : ValueOption α} (ho : o ∈ g.options) (hname : o.name = name) {args extras : List String}
    {b : β} (h : g.parse args = .ok (b, extras)) {text : String}
    (hlast : (g.texts name args).getLast? = some text) :
    ∃ values operands, g.finish values operands = some b ∧
      read (valueOf? g.keepsDashes text) = .ok (part values) := by
  obtain ⟨ws, p, hws, hwalk, hfinish⟩ := parse_eq_ok h
  have hfold := foldlM_textsOf_of_walk hrest hread ho hname (plainBehind_words hws) hwalk
  rw [texts, hws] at hlast
  exact ⟨p.values, p.operands, hfinish, read_of_foldlM_eq_ok hfold hlast⟩

end Grammar

end ContractSurvey.CommandLine
