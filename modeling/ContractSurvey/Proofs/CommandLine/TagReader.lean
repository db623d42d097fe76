import ContractSurvey.Proofs.CommandLine.Display
import Mathlib.Data.List.Sublists

/-!
# Proofs — CommandLine — TagReader

A screen that reads tags.  It keeps the names of the tags that are open and the letters of the tag
that it is in, and refuses a closing tag whose name is not open; to it a backslash is a character
like any other.  While it reads a paired text, no tag is closed that was open before, and so it
takes every such text (`screen_of_isPaired`).
-/

namespace ContractSurvey.Markup

/-- How far a text is read. -/
structure Reader where
  /-- The tags that are open, the last one first. -/
  opened : List (List Char) := []
  /-- The letters behind the last opening bracket, if a tag may still come of it. -/
  letters : Option (List Char) := none

namespace Reader

/-- What a tag with these letters does to those that are open. -/
def settle (opened : List (List Char)) : List Char → Except String Reader
  | [] => .ok ⟨opened, none⟩
  | '/' :: name =>
    if name ∈ opened then .ok ⟨opened.erase name, none⟩
    else .error ("closing tag '[/" ++ String.ofList name ++ "]' doesn't match any open tag")
  | letters => .ok ⟨letters :: opened, none⟩

/-- Reads one more character. -/
def step (r : Reader) (c : Char) : Except String Reader :=
  if c = '[' then .ok { r with letters := some [] }
  else
    match r.letters with
    | none => .ok r
    | some letters =>
      if c = ']' then settle r.opened letters else .ok { r with letters := some (letters ++ [c]) }

/-- Reads some characters. -/
def read (r : Reader) (cs : List Char) : Except String Reader := cs.foldlM step r

end Reader

/-- What is said of a text that is refused. -/
def refusal? (text : String) : Option String :=
  match Reader.read {} text.toList with
  | .ok _ => none
  | .error message => some message

namespace Reader

variable {r : Reader} {cs ds : List Char}

theorem read_append : r.read (cs ++ ds) = r.read cs >>= (·.read ds) := List.foldlM_append ..

theorem read_cons (c : Char) : r.read (c :: cs) = r.step c >>= (·.read cs) := List.foldlM_cons ..

/-- The letters so far are not those of a closing tag. -/
def IsOpening (r : Reader) : Prop := ∀ letters ∈ r.letters, letters.head? ≠ some '/'

/-- Between two pieces of a text: the letters so far are not those of a closing tag, nor can they
become that. -/
structure IsSettled (r : Reader) : Prop where
  opening : r.IsOpening
  letters_ne : r.letters ≠ some []

/-- A tag that closes nothing is taken. -/
theorem exists_settle (opened : List (List Char)) {letters : List Char}
    (h : letters.head? ≠ some '/') :
    ∃ r, settle opened letters = .ok r ∧ r.letters = none ∧ opened.Sublist r.opened := by
  unfold settle
  split
  · exact ⟨_, rfl, rfl, List.Sublist.refl _⟩
  · exact absurd rfl h
  · exact ⟨_, rfl, rfl, List.sublist_cons_self _ _⟩

/-- A character that makes no closing tag is taken, and leaves open what was. -/
theorem exists_step (hr : r.IsOpening) {c : Char} (h : r.letters = some [] → c ≠ '/') :
    ∃ r', r.step c = .ok r' ∧ r'.IsOpening ∧ (r'.letters = some [] → c = '[') ∧
      r.opened.Sublist r'.opened := by
  unfold step
  split
  · next hbracket =>
      refine ⟨_, rfl, ?_, fun _ => hbracket, List.Sublist.refl _⟩
      rintro _ ⟨⟩
      exact nofun
  · split
    · next hnone => exact ⟨r, rfl, hr, fun hempty => by simp [hnone] at hempty, List.Sublist.refl _⟩
    · next letters hletters =>
        split
        · obtain ⟨r', hsettle, hnone, hsub⟩ := exists_settle r.opened (hr _ hletters)
          exact ⟨r', hsettle, by simp [IsOpening, hnone], by simp [hnone], hsub⟩
        · refine ⟨_, rfl, ?_, by simp, List.Sublist.refl _⟩
          rintro _ ⟨⟩
          cases letters with
          | nil => simpa using h hletters
          | cons d letters => exact hr (d :: letters) hletters

theorem exists_read_of_plain (hchain : cs.IsChain fun c d => ¬ (c = '[' ∧ d = '/'))
    (hlast : ∀ c ∈ cs.getLast?, c ≠ '[') (hr : r.IsOpening)
    (hnext : r.letters = some [] → cs.head? ≠ some '/' ∧ cs ≠ []) :
    ∃ r', r.read cs = .ok r' ∧ r'.IsSettled ∧ r.opened.Sublist r'.opened := by
  induction cs generalizing r with
  | nil => exact ⟨r, rfl, ⟨hr, fun hempty => (hnext hempty).2 rfl⟩, List.Sublist.refl _⟩
  | cons c cs ih =>
      obtain ⟨r₁, hstep, hr₁, hbracket, hsub₁⟩ :=
        exists_step (c := c) hr fun hempty => by simpa using (hnext hempty).1
      have hnext₁ : r₁.letters = some [] → cs.head? ≠ some '/' ∧ cs ≠ [] := by
        -- only a bracket leaves no letters behind it, and no slash follows one in a plain text
        intro hempty
        obtain rfl := hbracket hempty
        cases cs with
        | nil => exact absurd rfl (hlast '[' (by simp))
        | cons d cs =>
            refine ⟨fun hslash => ?_, List.cons_ne_nil _ _⟩
            exact (List.isChain_cons_cons.mp hchain).1 ⟨rfl, by simpa using hslash⟩
      have hlast₁ : ∀ d ∈ cs.getLast?, d ≠ '[' := fun d hd =>
        hlast d (List.mem_getLast?_cons hd)
      obtain ⟨r', hread, hsettled, hsub⟩ := ih hchain.tail hlast₁ hr₁ hnext₁
      exact ⟨r', by rw [read_cons, hstep, ok_bind, hread], hsettled, hsub₁.trans hsub⟩

/-! ### Tags -/

theorem read_letters {opened : List (List Char)} {letters name : List Char}
    (h : ∀ c ∈ name, c ≠ '[' ∧ c ≠ ']') :
    read ⟨opened, some letters⟩ name = .ok ⟨opened, some (letters ++ name)⟩ := by
  induction name generalizing letters with
  | nil => simp [read, pure, Except.pure]
  | cons c name ih =>
      obtain ⟨⟨hopen, hclose⟩, hname⟩ := List.forall_mem_cons.mp h
      have hstep : step ⟨opened, some letters⟩ c = .ok ⟨opened, some (letters ++ [c])⟩ := by
        simp [step, hopen, hclose]
      rw [read_cons, hstep, ok_bind, ih hname, List.append_assoc]
      rfl

/-- A tag is read whatever stands before it. -/
theorem read_tag (r : Reader) {name : List Char} (h : ∀ c ∈ name, c ≠ '[' ∧ c ≠ ']') :
    r.read ('[' :: (name ++ [']'])) = settle r.opened name := by
  have hopen : r.step '[' = .ok ⟨r.opened, some []⟩ := rfl
  have hclose : read ⟨r.opened, some name⟩ [']'] = settle r.opened name := by
    rw [read_cons]
    exact bind_pure (settle r.opened name)
  rw [read_cons, hopen, ok_bind, read_append, read_letters h, ok_bind]
  exact hclose

theorem letters_of_mem_styles : ∀ style ∈ styles, style.toList ≠ [] ∧
    ∀ c ∈ style.toList, c ≠ '[' ∧ c ≠ ']' ∧ c ≠ '/' := by
  have hstyles : ∀ style ∈ styles, style.toList ≠ [] ∧
      style.toList.all (fun c => c ≠ '[' ∧ c ≠ ']' ∧ c ≠ '/') = true := by decide
  simpa only [List.all_eq_true, decide_eq_true_iff] using hstyles

theorem settle_of_mem_styles {style : String} (h : style ∈ styles) (opened : List (List Char)) :
    settle opened style.toList = .ok ⟨style.toList :: opened, none⟩ := by
  obtain ⟨hne, hletters⟩ := letters_of_mem_styles style h
  unfold settle
  split
  · next hnil => exact absurd hnil hne
  · next name hname => exact absurd rfl (hletters '/' (by rw [hname]; simp)).2.2
  · rfl

/-- **Paired texts** are read to their end, and leave open what was open before. -/
theorem exists_read_of_paired {text : String} (h : Paired text) (hr : r.IsSettled) :
    ∃ r', r.read text.toList = .ok r' ∧ r'.IsSettled ∧ r.opened.Sublist r'.opened := by
  induction h generalizing r with
  | plain h =>
      exact exists_read_of_plain h.chain (fun c hc => (h.last c hc).1) hr.opening
        fun hempty => absurd hempty hr.letters_ne
  | append _ _ ihs iht =>
      obtain ⟨r₁, hread₁, hr₁, hsub₁⟩ := ihs hr
      obtain ⟨r₂, hread₂, hr₂, hsub₂⟩ := iht hr₁
      refine ⟨r₂, ?_, hr₂, hsub₁.trans hsub₂⟩
      rw [String.toList_append, read_append, hread₁, ok_bind, hread₂]
  | @styled style text mem _ ih =>
      have hletters := (letters_of_mem_styles style mem).2
      have hopen : r.read ('[' :: (style.toList ++ [']'])) =
          .ok ⟨style.toList :: r.opened, none⟩ := by
        rw [read_tag r fun c hc => ⟨(hletters c hc).1, (hletters c hc).2.1⟩,
          settle_of_mem_styles mem]
      obtain ⟨r₁, hread, -, hsub⟩ := @ih ⟨style.toList :: r.opened, none⟩
        ⟨by simp [IsOpening], by simp⟩
      have hmem : style.toList ∈ r₁.opened := hsub.subset List.mem_cons_self
      have hclose : r₁.read ('[' :: (('/' :: style.toList) ++ [']'])) =
          .ok ⟨r₁.opened.erase style.toList, none⟩ := by
        rw [read_tag r₁ (List.forall_mem_cons.mpr ⟨by decide,
          fun c hc => ⟨(hletters c hc).1, (hletters c hc).2.1⟩⟩)]
        exact if_pos hmem
      have htext : ("[" ++ style ++ "]" ++ text ++ "[/" ++ style ++ "]").toList =
          ('[' :: (style.toList ++ [']'])) ++ text.toList ++
            ('[' :: (('/' :: style.toList) ++ [']'])) := by
        simp
      -- what was open stands below the tag that the text opens and closes
      have hbelow : r.opened.Sublist (r₁.opened.erase style.toList) := by
        simpa using hsub.erase style.toList
      refine ⟨⟨r₁.opened.erase style.toList, none⟩, ?_, ⟨by simp [IsOpening], by simp⟩, hbelow⟩
      rw [htext, read_append, read_append, hopen, ok_bind, hread, ok_bind, hclose]

end Reader

theorem refusal?_of_paired {text : String} (h : Paired text) : refusal? text = none := by
  obtain ⟨r, hread, -⟩ := Reader.exists_read_of_paired (r := {}) h ⟨by simp [Reader.IsOpening],
    by simp⟩
  rw [refusal?, hread]

open CommandLine (Shown)

/-- The screen refuses what has a text that it refuses. -/
def screen (x : Shown) : Option String := x.texts.findSome? refusal?

/-- **The screen** takes everything whose texts are paired. -/
theorem screen_of_isPaired {x : Shown} (h : x.IsPaired) : screen x = none :=
  List.findSome?_eq_none_iff.mpr fun t ht => refusal?_of_paired (h t ht)

end ContractSurvey.Markup
