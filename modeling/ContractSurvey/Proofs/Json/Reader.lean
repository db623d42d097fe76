import ContractSurvey.Proofs.Json.Grammar

/-!
# Proofs — Json — Reader

The reader follows the grammar: it reads every text of a value as that value
(`parse?_of_isDocument`), so that no text has two values (`IsDocument.unique`).

A reader takes its part from the front of a text and leaves the rest, so each lemma has a rest
behind the part.  Behind a number it must not go on like a number, which `Closes` says of all that
can stand behind a value.  The bound of the nesting is counted in the characters of the part.
-/

namespace ContractSurvey.Json

/-! ### Blanks -/

theorem skipBlanks_eq_dropWhile (cs : List Char) : skipBlanks cs = cs.dropWhile isBlank := rfl

theorem skipBlanks_append {a cs : List Char} (ha : Blanks a)
    (hcs : ∀ c ∈ cs.head?, isBlank c = false) : skipBlanks (a ++ cs) = cs := by
  rw [skipBlanks_eq_dropWhile, List.dropWhile_append_of_pos ha]
  cases cs with
  | nil => rfl
  | cons c cs => rw [List.dropWhile_cons_of_neg (by simp [hcs c rfl])]

theorem skipBlanks_cons {a cs : List Char} {c : Char} (ha : Blanks a) (hc : isBlank c = false) :
    skipBlanks (a ++ c :: cs) = c :: cs :=
  skipBlanks_append ha fun _ h => Option.some.inj h ▸ hc

theorem skipBlanks_blanks {b : List Char} (hb : Blanks b) : skipBlanks b = [] := by
  rw [← List.append_nil b, skipBlanks_append hb (by simp)]

/-! ### Numbers -/

/-- What can stand behind a value: a blank, a comma, a closing bracket or brace, or nothing. -/
def Closes (rest : List Char) : Prop :=
  ∀ c ∈ rest.head?, isBlank c = true ∨ c = ',' ∨ c = ']' ∨ c = '\x7d'

/-- The text does not go on with a character of this kind. -/
def Stops (kind : Char → Bool) (rest : List Char) : Prop := ∀ c ∈ rest.head?, kind c = false

theorem digits?_append {ds rest : List Char} (hds : IsDigits ds) (h : Stops Char.isDigit rest) :
    digits? (ds ++ rest) = some (ds, rest) := by
  have htake : (ds ++ rest).takeWhile Char.isDigit = ds := by
    rw [List.takeWhile_append_of_pos hds.2]
    cases rest with
    | nil => simp
    | cons c rest => simp [h c rfl]
  have hdrop : (ds ++ rest).dropWhile Char.isDigit = rest := by
    rw [List.dropWhile_append_of_pos hds.2]
    cases rest with
    | nil => rfl
    | cons c rest => simp [h c rfl]
  simp [digits?, htake, hdrop, hds.1]

theorem Closes.stops {rest : List Char} (h : Closes rest) :
    Stops Char.isDigit rest ∧ Stops (· == '.') rest ∧ Stops (fun c => c = 'e' || c = 'E') rest := by
  have hkinds (c : Char) (hc : isBlank c = true ∨ c = ',' ∨ c = ']' ∨ c = '\x7d') :
      c.isDigit = false ∧ (c == '.') = false ∧ (c = 'e' || c = 'E') = false := by
    simp only [isBlank, Bool.or_eq_true, decide_eq_true_eq] at hc
    rcases hc with (((rfl | rfl) | rfl) | rfl) | rfl | rfl | rfl <;> decide
  exact ⟨fun c hc => (hkinds c (h c hc)).1, fun c hc => (hkinds c (h c hc)).2.1,
    fun c hc => (hkinds c (h c hc)).2.2⟩

/-- A digit, as against the other characters of a number. -/
theorem isDigit_ne {c : Char} (h : c.isDigit = true) :
    c ≠ '.' ∧ c ≠ 'e' ∧ c ≠ 'E' ∧ c ≠ '-' ∧ c ≠ '+' := by
  refine ⟨?_, ?_, ?_, ?_, ?_⟩ <;> rintro rfl <;> exact absurd h (by decide)

theorem exponent?_append {power : Option Power} {rest : List Char} (h : Closes rest) :
    exponent? (Numeral.powerChars power ++ rest) = some (power.map (·.value), rest) := by
  obtain ⟨hdigit, -, hletter⟩ := h.stops
  cases power with
  | none =>
      cases rest with
      | nil => rfl
      | cons c rest =>
          have hc := hletter c rfl
          simp [Numeral.powerChars, exponent?, hc]
  | some p =>
      obtain ⟨letter, sign, ds, hletter, hds⟩ := p
      have hread := digits?_append hds hdigit
      have hmark : (letter = 'e' || letter = 'E') = true := by simpa using hletter
      cases sign with
      | plus | minus =>
          simp [Numeral.powerChars, Power.chars, PowerSign.chars, exponent?, hmark, hread,
            Power.value]
      | none =>
          obtain ⟨d, ds, rfl⟩ := List.exists_cons_of_ne_nil hds.1
          have hd := isDigit_ne (hds.2 d (by simp))
          simp only [Numeral.powerChars, Power.chars, PowerSign.chars, List.cons_append,
            List.nil_append, exponent?, hmark, if_true]
          split
          · next h => exact absurd (List.cons.inj h).1 hd.2.2.2.1
          · next h => exact absurd (List.cons.inj h).1 hd.2.2.2.2
          · rw [← List.cons_append, hread]
            rfl

theorem stops_powerChars (power : Option Power) {rest : List Char} (h : Closes rest) :
    Stops Char.isDigit (Numeral.powerChars power ++ rest) ∧
      Stops (· == '.') (Numeral.powerChars power ++ rest) := by
  cases power with
  | none => exact ⟨h.stops.1, h.stops.2.1⟩
  | some p =>
      obtain ⟨letter, sign, ds, hletter, hds⟩ := p
      rcases hletter with rfl | rfl <;> simp [Stops, Numeral.powerChars, Power.chars]

theorem fraction?_append {places : Option (List Char)} {rest : List Char}
    (hplaces : ∀ ds ∈ places, IsDigits ds) (hdigit : Stops Char.isDigit rest)
    (hpoint : Stops (· == '.') rest) :
    fraction? (Numeral.placesChars places ++ rest) = some (places, rest) := by
  cases places with
  | some ds => simp [Numeral.placesChars, fraction?, digits?_append (hplaces ds rfl) hdigit]
  | none =>
      cases rest with
      | nil => rfl
      | cons c rest =>
          have hc : c ≠ '.' := by simpa using hpoint c rfl
          simp [Numeral.placesChars, fraction?, hc]

theorem unsigned?_append (n : Numeral) {rest : List Char} (h : Closes rest) :
    unsigned? n.negative (n.whole ++ (Numeral.placesChars n.places ++
      (Numeral.powerChars n.power ++ rest))) = some (n.value, rest) := by
  obtain ⟨hdigit, hpoint⟩ := stops_powerChars n.power h
  have hwhole : Stops Char.isDigit (Numeral.placesChars n.places ++
      (Numeral.powerChars n.power ++ rest)) := by
    cases n.places with
    | none => exact hdigit
    | some ds => simp [Stops, Numeral.placesChars]
  have hzero : (n.whole.length > 1 && n.whole.head? = some '0') = false := by
    rcases n.noLeadingZero with h | h <;> simp [h]
  rw [unsigned?, digits?_append n.isWhole hwhole]
  simp only [Option.bind_eq_bind, Option.bind_some, hzero,
    fraction?_append n.isPlaces hdigit hpoint, exponent?_append h]
  cases hplaces : n.places <;> cases hpower : n.power <;> simp [Numeral.value, hplaces, hpower]

theorem number?_append (n : Numeral) {rest : List Char} (h : Closes rest) :
    number? (n.chars ++ rest) = some (n.value, rest) := by
  have hread := unsigned?_append n h
  simp only [Numeral.chars, List.append_assoc]
  cases hsign : n.negative with
  | true => simpa [Numeral.signChars, number?, hsign] using hread
  | false =>
      obtain ⟨d, ds, hwhole⟩ := List.exists_cons_of_ne_nil n.isWhole.1
      have hd := (isDigit_ne (n.isWhole.2 d (by simp [hwhole]))).2.2.2.1
      rw [hsign, hwhole] at hread
      rw [hwhole]
      simp only [Numeral.signChars, Bool.false_eq_true, if_false, List.nil_append,
        List.cons_append] at hread ⊢
      rw [number?]
      · exact hread
      · rintro rest h
        exact absurd (List.cons.inj h).1 hd

/-! ### Strings -/

/-- A unit that does not open a pair of surrogates is a character by itself. -/
theorem joinUnits_cons {n : Nat} (h : n < 0xd800 ∨ 0xdc00 ≤ n) (ns : List Nat) :
    joinUnits (n :: ns) = Char.ofNat n :: joinUnits ns := by
  cases ns with
  | nil => rfl
  | cons l ns => rw [joinUnits, if_neg (by omega)]

theorem toNat_not_high (c : Char) : c.toNat < 0xd800 ∨ 0xdc00 ≤ c.toNat := by
  rcases c.valid with h | h
  · exact .inl h
  · exact .inr (Nat.le_trans (by decide) (Nat.le_of_lt h.1))

/-- The units of a string are read up to its closing quote, and make up its characters. -/
theorem stringUnits_append {s cs : List Char} (h : SpellsText s cs) (rest : List Char) :
    ∃ ns, stringUnits (cs ++ '"' :: rest) = some (ns, rest) ∧ joinUnits ns = s := by
  induction h with
  | nil => exact ⟨[], by rw [List.nil_append, stringUnits], rfl⟩
  | @plain c s cs hquote hslash hcontrol _ ih =>
      obtain ⟨ns, hread, hjoin⟩ := ih
      refine ⟨c.toNat :: ns, ?_, ?_⟩
      · rw [List.cons_append, stringUnits, hread]
        · simp [hslash, Nat.not_lt.mpr hcontrol]
        · exact hquote
        · intros; contradiction
        · intros; contradiction
      · rw [joinUnits_cons (toNat_not_high c), hjoin, Char.ofNat_toNat]
  | @escaped e c s cs he _ ih =>
      obtain ⟨ns, hread, hjoin⟩ := ih
      refine ⟨c.toNat :: ns, ?_, ?_⟩
      · rw [List.cons_append, List.cons_append, stringUnits, hread, he]
        · rfl
        · rintro a b c d rest rfl
          cases he
      · rw [joinUnits_cons (toNat_not_high c), hjoin, Char.ofNat_toNat]
  | @unit a b c d n s cs hn hchar _ ih =>
      obtain ⟨ns, hread, hjoin⟩ := ih
      refine ⟨n :: ns, ?_, ?_⟩
      · simp only [List.cons_append, stringUnits, hn, hread]
        rfl
      · rw [joinUnits_cons (by omega), hjoin]
  | @pair a b c d a' b' c' d' high low s cs hhigh hlow hhighest hlowest _ ih =>
      obtain ⟨ns, hread, hjoin⟩ := ih
      refine ⟨high :: low :: ns, ?_, ?_⟩
      · simp only [List.cons_append, stringUnits, hhigh, hlow, hread]
        rfl
      · rw [joinUnits, if_pos ⟨hhighest.1, hhighest.2, hlowest.1, hlowest.2⟩, hjoin]

theorem string?_append {s : String} {cs : List Char} (h : SpellsText s.toList cs)
    (rest : List Char) : string? (cs ++ '"' :: rest) = some (s, rest) := by
  obtain ⟨ns, hread, hjoin⟩ := stringUnits_append h rest
  simp [string?, hread, hjoin]

/-! ### Values -/

/-- A value starts with a character that neither is passed over nor closes an array. -/
theorem Spells.head {v : Json} {cs : List Char} (h : Spells v cs) :
    ∃ c ds, cs = c :: ds ∧ isBlank c = false ∧ c ≠ ']' := by
  cases h with
  | number n =>
      obtain ⟨d, ds, hwhole⟩ := List.exists_cons_of_ne_nil n.isWhole.1
      have hd := n.isWhole.2 d (by simp [hwhole])
      rw [Numeral.chars, hwhole]
      cases n.negative with
      | true => exact ⟨_, _, rfl, by decide, by decide⟩
      | false =>
          refine ⟨d, _, rfl, ?_, ?_⟩
          · simp only [isBlank, Bool.or_eq_false_iff, decide_eq_false_iff_not]
            refine ⟨⟨⟨?_, ?_⟩, ?_⟩, ?_⟩ <;> rintro rfl <;> exact absurd hd (by decide)
          · rintro rfl
            exact absurd hd (by decide)
  | null | truth | falsity | text | noItems | items | noFields | fields =>
      exact ⟨_, _, rfl, by decide, by decide⟩

theorem Spells.length_pos {v : Json} {cs : List Char} (h : Spells v cs) : 0 < cs.length := by
  obtain ⟨c, ds, rfl, -⟩ := h.head
  simp

theorem SpellsItems.length_pos {vs : List Json} {cs : List Char} (h : SpellsItems vs cs) :
    0 < cs.length := by
  cases h <;> simp only [List.length_append, List.length_cons] <;> omega

theorem SpellsField.head {f : String × Json} {cs : List Char} (h : SpellsField f cs) :
    ∃ ds, cs = '"' :: ds := by
  cases h
  exact ⟨_, rfl⟩

theorem SpellsField.length_pos {f : String × Json} {cs : List Char} (h : SpellsField f cs) :
    0 < cs.length := by
  obtain ⟨ds, rfl⟩ := h.head
  simp

theorem SpellsFields.length_pos {fs : List (String × Json)} {cs : List Char}
    (h : SpellsFields fs cs) : 0 < cs.length := by
  cases h <;> simp only [List.length_append, List.length_cons] <;> omega

/-- What stands behind the first item or field closes it. -/
theorem closes_append {b cs : List Char} {c : Char} (hb : Blanks b)
    (hc : c = ',' ∨ c = ']' ∨ c = '\x7d') : Closes (b ++ c :: cs) := by
  intro c' hc'
  cases b with
  | nil => exact .inr (Option.some.inj hc' ▸ hc)
  | cons d b => exact .inl (Option.some.inj hc' ▸ hb d (by simp))

theorem SpellsItems.closes {vs : List Json} {cs : List Char} (h : SpellsItems vs cs)
    (rest : List Char) : Closes (cs ++ rest) := by
  cases h with
  | close hb | next hb => simpa using closes_append hb (by simp)

theorem SpellsFields.closes {fs : List (String × Json)} {cs : List Char} (h : SpellsFields fs cs)
    (rest : List Char) : Closes (cs ++ rest) := by
  cases h with
  | close hb | next hb => simpa using closes_append hb (by simp)

theorem value?_number (n : Numeral) {bound : Nat} {a rest : List Char} (ha : Blanks a)
    (h : Closes rest) : value? (bound + 1) (a ++ (n.chars ++ rest)) = some (n.value, rest) := by
  obtain ⟨c, cs, hcs, hc⟩ : ∃ c cs, n.chars = c :: cs ∧ (c = '-' ∨ c.isDigit = true) := by
    obtain ⟨d, ds, hwhole⟩ := List.exists_cons_of_ne_nil n.isWhole.1
    rw [Numeral.chars, hwhole]
    cases n.negative with
    | true => exact ⟨_, _, rfl, .inl rfl⟩
    | false => exact ⟨_, _, rfl, .inr (n.isWhole.2 d (by simp [hwhole]))⟩
  have hread := number?_append n h
  rw [hcs, List.cons_append] at hread ⊢
  have hfirst : [' ', '\n', '\r', '\t', '"', '[', '\x7b', 'n', 't', 'f'].all
      (fun d => d ≠ '-' ∧ d.isDigit = false) = true := by decide
  have hother : ∀ d ∈ [' ', '\n', '\r', '\t', '"', '[', '\x7b', 'n', 't', 'f'], c ≠ d := by
    rintro _ hd rfl
    obtain ⟨hminus, hdigit⟩ := of_decide_eq_true (List.all_eq_true.mp hfirst c hd)
    exact hc.elim hminus (Bool.eq_false_iff.mp hdigit)
  simp only [List.forall_mem_cons] at hother
  obtain ⟨h1, h2, h3, h4, hquote, hitems, hfields, hnull, htrue, hfalse, -⟩ := hother
  have hblank : isBlank c = false := by simp [isBlank, h1, h2, h3, h4]
  have hword {w : String} {d : Char} {ds : List Char} (hw : w.toList = d :: ds) (hd : c ≠ d) :
      after? w (c :: (cs ++ rest)) = none := by
    simp [after?, hw, Ne.symm hd]
  rw [value?, skipBlanks_cons ha hblank]
  split
  · next heq => exact absurd (List.cons.inj heq).1 hquote
  · next heq => exact absurd (List.cons.inj heq).1 hitems
  · next heq => exact absurd (List.cons.inj heq).1 hfields
  · rw [hword (w := "null") rfl hnull, hword (w := "true") rfl htrue,
      hword (w := "false") rfl hfalse, hread]
    rfl

/-- The reader takes a field from the front of a text. -/
def ReadsField (bound : Nat) (cs : List Char) (f : String × Json) (rest : List Char) : Prop :=
  ∃ cs₁ cs₂ cs₃, skipBlanks cs = '"' :: cs₁ ∧ string? cs₁ = some (f.1, cs₂) ∧
    skipBlanks cs₂ = ':' :: cs₃ ∧ value? bound cs₃ = some (f.2, rest)

mutual

theorem value?_append : ∀ {v : Json} {cs : List Char}, Spells v cs → ∀ {bound : Nat}
    {a rest : List Char}, Blanks a → Closes rest → cs.length < bound →
    value? bound (a ++ (cs ++ rest)) = some (v, rest)
  | _, _, .null, bound + 1, a, rest, ha, hrest, hbound => by
    simp only [List.cons_append, List.nil_append]
    rw [value?, skipBlanks_cons ha (by decide)]
    rfl
  | _, _, .truth, bound + 1, a, rest, ha, hrest, hbound => by
    simp only [List.cons_append, List.nil_append]
    rw [value?, skipBlanks_cons ha (by decide)]
    rfl
  | _, _, .falsity, bound + 1, a, rest, ha, hrest, hbound => by
    simp only [List.cons_append, List.nil_append]
    rw [value?, skipBlanks_cons ha (by decide)]
    rfl
  | _, _, .number n, bound + 1, a, rest, ha, hrest, hbound => value?_number n ha hrest
  | _, _, .text h, bound + 1, a, rest, ha, hrest, hbound => by
    simp only [List.cons_append, List.append_assoc, List.nil_append]
    rw [value?, skipBlanks_cons ha (by decide)]
    simp only [string?_append h]
    rfl
  | _, _, .noItems hb, bound + 1, a, rest, ha, hrest, hbound => by
    simp only [List.cons_append, List.append_assoc, List.nil_append]
    rw [value?, skipBlanks_cons ha (by decide)]
    simp only [skipBlanks_cons hb (by decide : isBlank ']' = false)]
  | _, _, @Spells.items b cs ds v vs hb hv hvs, bound + 1, a, rest, ha, hrest, hbound => by
    obtain ⟨c, cs', hcs, hblank, hclose⟩ := hv.head
    have hds := hvs.length_pos
    have hpos := hv.length_pos
    simp only [List.length_append, List.length_cons] at hbound
    obtain ⟨bound, rfl⟩ : ∃ k, bound = k + 1 := ⟨bound - 1, by omega⟩
    have hfirst := @value?_append _ _ hv bound [] (ds ++ rest) (by simp [Blanks])
      (hvs.closes rest) (by omega)
    have hitems := @items?_append _ _ hvs bound _ rest v (by omega) hfirst
    simp only [List.cons_append, List.append_assoc, List.nil_append] at hitems ⊢
    rw [value?, skipBlanks_cons ha (by decide)]
    simp only [hcs, List.cons_append, skipBlanks_cons hb hblank] at hitems ⊢
    split
    · next heq => exact absurd (List.cons.inj heq).1 hclose
    · rw [hitems]
      rfl
  | _, _, .noFields hb, bound + 1, a, rest, ha, hrest, hbound => by
    simp only [List.cons_append, List.append_assoc, List.nil_append]
    rw [value?, skipBlanks_cons ha (by decide)]
    simp only [skipBlanks_cons hb (by decide : isBlank '\x7d' = false)]
  | _, _, @Spells.fields b cs ds f fs hb hf hfs, bound + 1, a, rest, ha, hrest, hbound => by
    have hds := hfs.length_pos
    have hpos := hf.length_pos
    simp only [List.length_append, List.length_cons] at hbound
    obtain ⟨bound, rfl⟩ : ∃ k, bound = k + 1 := ⟨bound - 1, by omega⟩
    have hfirst := @readsField_append _ _ hf bound [] (ds ++ rest) (by simp [Blanks])
      (hfs.closes rest) (by omega)
    have hfields := @fields?_append _ _ hfs bound _ rest f (by omega) hfirst
    obtain ⟨cs', rfl⟩ := hf.head
    simp only [List.cons_append, List.append_assoc, List.nil_append] at hfields ⊢
    rw [value?, skipBlanks_cons ha (by decide)]
    simp only [skipBlanks_cons hb (by decide : isBlank '"' = false)]
    split
    · next heq => exact absurd (List.cons.inj heq).1 (by decide)
    · rw [hfields]
      rfl

theorem items?_append : ∀ {vs : List Json} {ds : List Char}, SpellsItems vs ds →
    ∀ {bound : Nat} {cs rest : List Char} {v : Json}, ds.length < bound →
    value? bound cs = some (v, ds ++ rest) → items? (bound + 1) cs = some (v :: vs, rest)
  | _, _, .close hb, bound, cs, rest, v, hbound, hread => by
    rw [items?, hread]
    simp only [List.append_assoc, List.cons_append, List.nil_append, Option.bind_some,
      skipBlanks_cons hb (by decide : isBlank ']' = false)]
  | _, _, @SpellsItems.next b a cs' ds w vs hb ha hv hvs, bound, cs, rest, v, hbound, hread => by
    have hds := hvs.length_pos
    have hpos := hv.length_pos
    simp only [List.length_append, List.length_cons] at hbound
    obtain ⟨bound, rfl⟩ : ∃ k, bound = k + 1 := ⟨bound - 1, by omega⟩
    have hnext := @value?_append _ _ hv bound a (ds ++ rest) ha (hvs.closes rest) (by omega)
    have hitems := @items?_append _ _ hvs bound _ rest w (by omega) hnext
    rw [items?, hread]
    simp only [List.append_assoc, List.cons_append, Option.bind_some,
      skipBlanks_cons hb (by decide : isBlank ',' = false), hitems]
    rfl

theorem readsField_append : ∀ {f : String × Json} {cs : List Char}, SpellsField f cs →
    ∀ {bound : Nat} {a rest : List Char}, Blanks a → Closes rest → cs.length < bound →
    ReadsField bound (a ++ (cs ++ rest)) f rest
  | _, _, .mk hname hb hc hv, bound, a, rest, ha, hrest, hbound => by
    simp only [List.length_append, List.length_cons] at hbound
    have hvalue := @value?_append _ _ hv bound _ rest hc hrest (by omega)
    simp only [List.cons_append, List.append_assoc]
    exact ⟨_, _, _, skipBlanks_cons ha (by decide), string?_append hname _,
      skipBlanks_cons hb (by decide), hvalue⟩

theorem fields?_append : ∀ {fs : List (String × Json)} {ds : List Char}, SpellsFields fs ds →
    ∀ {bound : Nat} {cs rest : List Char} {f : String × Json}, ds.length < bound →
    ReadsField bound cs f (ds ++ rest) → fields? (bound + 1) cs = some (f :: fs, rest)
  | _, _, .close hb, bound, cs, rest, f, hbound, ⟨_, _, _, hquote, hname, hcolon, hvalue⟩ => by
    rw [fields?, hquote]
    simp only [hname, hcolon, hvalue, List.append_assoc, List.cons_append, List.nil_append,
      Option.bind_some, skipBlanks_cons hb (by decide : isBlank '\x7d' = false)]
  | _, _, @SpellsFields.next b a cs' ds g fs hb ha hf hfs, bound, cs, rest, f, hbound,
      ⟨_, _, _, hquote, hname, hcolon, hvalue⟩ => by
    have hds := hfs.length_pos
    have hpos := hf.length_pos
    simp only [List.length_append, List.length_cons] at hbound
    obtain ⟨bound, rfl⟩ : ∃ k, bound = k + 1 := ⟨bound - 1, by omega⟩
    have hnext := @readsField_append _ _ hf bound a (ds ++ rest) ha (hfs.closes rest) (by omega)
    have hfields := @fields?_append _ _ hfs bound _ rest g (by omega) hnext
    rw [fields?, hquote]
    simp only [hname, hcolon, hvalue, List.append_assoc, List.cons_append, Option.bind_some,
      skipBlanks_cons hb (by decide : isBlank ',' = false), hfields]
    rfl

end

/-! ### Documents -/

/-- A text of a value is read as that value. -/
theorem parse?_of_isDocument {v : Json} {s : String} (h : IsDocument v s) : parse? s = some v := by
  obtain ⟨a, cs, b, ha, hv, hb, hs⟩ := h
  have hend : Closes b := fun c hc => .inl (hb c (List.mem_of_mem_head? hc))
  have hlength : cs.length ≤ s.toList.length := by
    rw [hs]
    simp only [List.length_append]
    omega
  have hread : value? (2 * s.toList.length + 1) (a ++ (cs ++ b)) = some (v, b) :=
    value?_append hv ha hend (by omega)
  rw [← List.append_assoc, ← hs] at hread
  simp [parse?, hread, skipBlanks_blanks hb]

/-- No text has two values. -/
theorem IsDocument.unique {v w : Json} {s : String} (hv : IsDocument v s) (hw : IsDocument w s) :
    v = w :=
  Option.some.inj ((parse?_of_isDocument hv).symm.trans (parse?_of_isDocument hw))

end ContractSurvey.Json
