import ContractSurvey.Proofs.Json.Numeral
import ContractSurvey.Proofs.Json.Reader
import ContractSurvey.Proofs.Number.Text

/-!
# Proofs — Json — Printer

Printed values are valid documents: each part that the printer writes is a text of its value, by
induction on the value, and so a text of a value whose doubles are finite is read back as that value
(`isDocument_of_print`, `parse?_of_print`).  NaN and the infinities have no numeral, and their names
are no JSON.

Which values have a text is the other half (`exists_print_iff`): those whose whole numbers are short
and that are nested no deeper than there is room for.  Both halves ask something of all the numbers
in a value (`passes`).
-/

namespace ContractSurvey.Json

/-! ### Numbers and nesting -/

mutual

/-- Whether all numbers of a value pass a test. -/
def passes (t : NumberTest) : Json → Bool
  | .int n => t.whole n
  | .float x => t.measured x
  | .array vs => itemsPass t vs
  | .object fs => fieldsPass t fs
  | .null | .bool _ | .text _ => true

def itemsPass (t : NumberTest) : List Json → Bool
  | [] => true
  | v :: vs => passes t v && itemsPass t vs

def fieldsPass (t : NumberTest) : List (String × Json) → Bool
  | [] => true
  | (_, v) :: fs => passes t v && fieldsPass t fs

end

mutual

/-- How many arrays and objects lie in each other, at most. -/
def depth : Json → Nat
  | .array vs => itemsDepth vs + 1
  | .object fs => fieldsDepth fs + 1
  | .null | .bool _ | .int _ | .float _ | .text _ => 0

def itemsDepth : List Json → Nat
  | [] => 0
  | v :: vs => max (depth v) (itemsDepth vs)

def fieldsDepth : List (String × Json) → Nat
  | [] => 0
  | (_, v) :: fs => max (depth v) (fieldsDepth fs)

end

section

variable {t : NumberTest} {vs : List Json} {fs : List (String × Json)} {k : Nat}

theorem itemsPass_iff : itemsPass t vs = true ↔ ∀ v ∈ vs, v.passes t = true := by
  induction vs with
  | nil => simp [itemsPass]
  | cons v vs ih => simp [itemsPass, ih]

theorem fieldsPass_iff : fieldsPass t fs = true ↔ ∀ f ∈ fs, f.2.passes t = true := by
  induction fs with
  | nil => simp [fieldsPass]
  | cons f fs ih => simp [fieldsPass, ih]

theorem itemsDepth_le_iff : itemsDepth vs ≤ k ↔ ∀ v ∈ vs, v.depth ≤ k := by
  induction vs with
  | nil => simp [itemsDepth]
  | cons v vs ih => simp only [itemsDepth, Nat.max_le, ih, List.forall_mem_cons]

theorem fieldsDepth_le_iff : fieldsDepth fs ≤ k ↔ ∀ f ∈ fs, f.2.depth ≤ k := by
  induction fs with
  | nil => simp [fieldsDepth]
  | cons f fs ih => simp only [fieldsDepth, Nat.max_le, ih, List.forall_mem_cons]

end

/-! ### Strings -/

theorem unit?_hexDigits {n : Nat} (hn : n < 0x10000) :
    ∃ a b c d, Text.hexDigits 4 n = [a, b, c, d] ∧ unit? a b c d = some n := by
  refine ⟨_, _, _, _, rfl, ?_⟩
  have hvalue (k : Nat) : Hex.value? (Hex.digit (k % 16)) = some (k % 16) :=
    Hex.value?_digit (Nat.mod_lt _ (by decide))
  simp only [unit?, hvalue, Option.bind_eq_bind, Option.bind_some, Option.pure_def,
    Option.some.injEq]
  show 4096 * (n / 4096 % 16) + 256 * (n / 256 % 16) + 16 * (n / 16 % 16) + n / 1 % 16 = n
  omega

theorem spellsText_escapedChar (c : Char) {s cs : List Char} (h : SpellsText s cs) :
    SpellsText (c :: s) (escapedChar c ++ cs) := by
  have hescaped {e d : Char} (he : unescape? e = some d) (hc : c = d) :
      SpellsText (c :: s) (['\\', e] ++ cs) := by
    subst hc
    exact .escaped he h
  unfold escapedChar
  split
  · exact hescaped rfl ‹_›
  split
  · exact hescaped rfl ‹_›
  split
  · exact hescaped rfl ‹_›
  split
  · exact hescaped rfl ‹_›
  split
  · exact hescaped rfl ‹_›
  split
  · exact hescaped rfl (Char.toNat_inj.mp ‹c.toNat = 8›)
  split
  · exact hescaped rfl (Char.toNat_inj.mp ‹c.toNat = 12›)
  split
  · next hc =>
      obtain ⟨a, b, c', d, hdigits, hunit⟩ := unit?_hexDigits (n := c.toNat) (by omega)
      have hspell := SpellsText.unit hunit (by omega) h
      rw [Char.ofNat_toNat] at hspell
      simpa [hdigits] using hspell
  · exact .plain ‹_› ‹_› (by omega) h

theorem spellsText_escaped (s : List Char) : SpellsText s (s.flatMap escapedChar) := by
  induction s with
  | nil => exact .nil
  | cons c s ih => exact spellsText_escapedChar c ih

theorem spells_stringChars (s : String) : Spells (.text s) (stringChars s) :=
  .text (spellsText_escaped s.toList)

/-! ### Values -/

theorem blanks_lineBreak (level : Nat) : Blanks (lineBreak level) := by
  intro c hc
  rcases List.mem_cons.mp hc with rfl | hc
  · rfl
  · rw [List.eq_of_mem_replicate hc]
    rfl

theorem spellsField_chars (k : String) {v : Json} {cs : List Char} (hv : Spells v cs) :
    SpellsField (k, v) (stringChars k ++ ':' :: ' ' :: cs) := by
  have hfield := SpellsField.mk (b := []) (a := [' ']) (spellsText_escaped k.toList)
    (by simp [Blanks]) (by simp [Blanks, isBlank]) hv
  simpa [stringChars] using hfield

/-- The text of a number, if it has one. -/
theorem chars_int_eq_ok_iff {room level : Nat} {k : Int} {cs : List Char} :
    chars room level (.int k) = .ok cs ↔ Whole.IsShort k ∧ (toString k).toList = cs := by
  rw [chars, Whole.text, Whole.ifShort]
  split <;> simp [Except.mapError, Except.map, *]

theorem chars_array (room level : Nat) (vs : List Json) : chars room level (.array vs) =
    if level < room then itemChars room level vs else .error .tooDeep := by
  rw [chars]

theorem chars_object (room level : Nat) (fs : List (String × Json)) :
    chars room level (.object fs) =
      if level < room then fieldChars room level fs else .error .tooDeep := by
  rw [chars]

/-- Two texts, one behind the other, are put together if there are both. -/
theorem bind_both_eq_ok_iff {ε : Type} {x y : Except ε (List Char)}
    {f : List Char → List Char → List Char} {cs : List Char} :
    (x >>= fun a => y >>= fun b => pure (f a b)) = .ok cs ↔
      ∃ a b, x = .ok a ∧ y = .ok b ∧ f a b = cs := by
  cases x <;> cases y <;> simp [bind, Except.bind, pure, Except.pure]

mutual

theorem spells_of_chars {room : Nat} : ∀ (v : Json) (level : Nat) (cs : List Char),
    v.passes .finite = true → chars room level v = .ok cs → Spells v cs
  | .null, level, _, _, h => by
    rw [chars] at h
    cases h
    exact .null
  | .bool true, level, _, _, h => by
    rw [chars] at h
    cases h
    exact .truth
  | .bool false, level, _, _, h => by
    rw [chars] at h
    cases h
    exact .falsity
  | .int k, level, _, _, h => by
    obtain ⟨-, rfl⟩ := chars_int_eq_ok_iff.mp h
    obtain ⟨n, hchars, hvalue⟩ := exists_numeral_int k
    rw [← hchars, ← hvalue]
    exact .number n
  | .float x, level, _, hx, h => by
    rw [chars] at h
    cases h
    rw [passes] at hx
    obtain ⟨n, hchars, hvalue⟩ := exists_numeral_float (x := x) hx
    rw [← hchars, ← hvalue]
    exact .number n
  | .text s, level, _, _, h => by
    rw [chars] at h
    cases h
    exact spells_stringChars s
  | .array vs, level, cs, hpass, h => by
    rw [chars_array] at h
    split at h
    · exact spells_of_itemChars vs level cs (by simpa only [passes] using hpass) h
    · cases h
  | .object fs, level, cs, hpass, h => by
    rw [chars_object] at h
    split at h
    · exact spells_of_fieldChars fs level cs (by simpa only [passes] using hpass) h
    · cases h

theorem spells_of_itemChars {room : Nat} : ∀ (vs : List Json) (level : Nat) (cs : List Char),
    itemsPass .finite vs = true → itemChars room level vs = .ok cs → Spells (.array vs) cs
  | [], level, _, _, h => by
    rw [itemChars] at h
    cases h
    exact .noItems (a := []) (by simp [Blanks])
  | v :: vs, level, _, hpass, h => by
    simp only [itemsPass, Bool.and_eq_true] at hpass
    obtain ⟨first, more, hfirst, hmore, rfl⟩ := bind_both_eq_ok_iff.mp h
    exact .items (blanks_lineBreak (level + 1)) (spells_of_chars v (level + 1) first hpass.1 hfirst)
      (spellsItems_of_moreItems vs level more hpass.2 hmore)

theorem spellsItems_of_moreItems {room : Nat} : ∀ (vs : List Json) (level : Nat)
    (cs : List Char), itemsPass .finite vs = true → moreItems room level vs = .ok cs →
      SpellsItems vs cs
  | [], level, _, _, h => by
    rw [moreItems] at h
    cases h
    exact .close (blanks_lineBreak level)
  | v :: vs, level, _, hpass, h => by
    simp only [itemsPass, Bool.and_eq_true] at hpass
    obtain ⟨next, more, hnext, hmore, rfl⟩ := bind_both_eq_ok_iff.mp h
    exact .next (b := []) (by simp [Blanks]) (blanks_lineBreak (level + 1))
      (spells_of_chars v (level + 1) next hpass.1 hnext)
      (spellsItems_of_moreItems vs level more hpass.2 hmore)

theorem spells_of_fieldChars {room : Nat} : ∀ (fs : List (String × Json)) (level : Nat)
    (cs : List Char), fieldsPass .finite fs = true → fieldChars room level fs = .ok cs →
      Spells (.object fs) cs
  | [], level, _, _, h => by
    rw [fieldChars] at h
    cases h
    exact .noFields (a := []) (by simp [Blanks])
  | (k, v) :: fs, level, _, hpass, h => by
    simp only [fieldsPass, Bool.and_eq_true] at hpass
    obtain ⟨first, more, hfirst, hmore, rfl⟩ := bind_both_eq_ok_iff.mp h
    have hfields := Spells.fields (blanks_lineBreak (level + 1))
      (spellsField_chars k (spells_of_chars v (level + 1) first hpass.1 hfirst))
      (spellsFields_of_moreFields fs level more hpass.2 hmore)
    simpa using hfields

theorem spellsFields_of_moreFields {room : Nat} : ∀ (fs : List (String × Json)) (level : Nat)
    (cs : List Char), fieldsPass .finite fs = true → moreFields room level fs = .ok cs →
      SpellsFields fs cs
  | [], level, _, _, h => by
    rw [moreFields] at h
    cases h
    exact .close (blanks_lineBreak level)
  | (k, v) :: fs, level, _, hpass, h => by
    simp only [fieldsPass, Bool.and_eq_true] at hpass
    obtain ⟨next, more, hnext, hmore, rfl⟩ := bind_both_eq_ok_iff.mp h
    have hfields := SpellsFields.next (b := []) (by simp [Blanks]) (blanks_lineBreak (level + 1))
      (spellsField_chars k (spells_of_chars v (level + 1) next hpass.1 hnext))
      (spellsFields_of_moreFields fs level more hpass.2 hmore)
    simpa using hfields

end

/-- A text of a value whose doubles are finite is a document of it. -/
theorem isDocument_of_print {room : Nat} {v : Json} {s : String} (h : v.passes .finite = true)
    (hs : v.print room = .ok s) : IsDocument v s := by
  obtain ⟨cs, hcs, rfl⟩ := map_eq_ok_iff.mp hs
  exact ⟨[], cs, [], by simp [Blanks], spells_of_chars v 0 cs h hcs, by simp [Blanks], by simp⟩

theorem parse?_of_print {room : Nat} {v : Json} {s : String} (h : v.passes .finite = true)
    (hs : v.print room = .ok s) : parse? s = some v :=
  parse?_of_isDocument (isDocument_of_print h hs)

/-! ### Which values have a text -/

theorem add_max_le_iff {a m n b : Nat} : a + max m n ≤ b ↔ a + m ≤ b ∧ a + n ≤ b := by
  omega

theorem exists_bind_both_iff {ε : Type} {x y : Except ε (List Char)}
    {f : List Char → List Char → List Char} :
    (∃ cs, (x >>= fun a => y >>= fun b => pure (f a b)) = .ok cs) ↔
      (∃ a, x = .ok a) ∧ ∃ b, y = .ok b := by
  simp only [bind_both_eq_ok_iff]
  constructor
  · rintro ⟨_, a, b, ha, hb, -⟩
    exact ⟨⟨a, ha⟩, b, hb⟩
  · rintro ⟨⟨a, ha⟩, b, hb⟩
    exact ⟨_, a, b, ha, hb, rfl⟩

mutual

theorem exists_chars_iff {room : Nat} : ∀ (v : Json) (level : Nat), level ≤ room →
    ((∃ cs, chars room level v = .ok cs) ↔ v.passes .short = true ∧ level + v.depth ≤ room)
  | .null, level, h => by simp [chars, passes, depth, h]
  | .bool _, level, h => by simp [chars, passes, depth, h]
  | .int k, level, h => by simp [chars_int_eq_ok_iff, passes, NumberTest.short, depth, h]
  | .float _, level, h => by simp [chars, passes, NumberTest.short, depth, h]
  | .text _, level, h => by simp [chars, passes, depth, h]
  | .array vs, level, h => by
    rw [chars_array, passes, depth]
    split
    · next hroom => rw [exists_itemChars_iff vs level hroom, Nat.add_right_comm, Nat.add_assoc]
    · next hroom =>
        have hdeep : ¬ level + (itemsDepth vs + 1) ≤ room := by omega
        simp [hdeep]
  | .object fs, level, h => by
    rw [chars_object, passes, depth]
    split
    · next hroom => rw [exists_fieldChars_iff fs level hroom, Nat.add_right_comm, Nat.add_assoc]
    · next hroom =>
        have hdeep : ¬ level + (fieldsDepth fs + 1) ≤ room := by omega
        simp [hdeep]

theorem exists_itemChars_iff {room : Nat} : ∀ (vs : List Json) (level : Nat), level < room →
    ((∃ cs, itemChars room level vs = .ok cs) ↔
      itemsPass .short vs = true ∧ level + 1 + itemsDepth vs ≤ room)
  | [], level, h => by simp [itemChars, itemsPass, itemsDepth, Nat.succ_le_of_lt h]
  | v :: vs, level, h => by
    rw [itemChars, exists_bind_both_iff, exists_chars_iff v (level + 1) h,
      exists_moreItems_iff vs level h, itemsPass, itemsDepth,
      Bool.and_eq_true, add_max_le_iff, and_and_and_comm]

theorem exists_moreItems_iff {room : Nat} : ∀ (vs : List Json) (level : Nat), level < room →
    ((∃ cs, moreItems room level vs = .ok cs) ↔
      itemsPass .short vs = true ∧ level + 1 + itemsDepth vs ≤ room)
  | [], level, h => by simp [moreItems, itemsPass, itemsDepth, Nat.succ_le_of_lt h]
  | v :: vs, level, h => by
    rw [moreItems, exists_bind_both_iff, exists_chars_iff v (level + 1) h,
      exists_moreItems_iff vs level h, itemsPass, itemsDepth,
      Bool.and_eq_true, add_max_le_iff, and_and_and_comm]

theorem exists_fieldChars_iff {room : Nat} : ∀ (fs : List (String × Json)) (level : Nat),
    level < room → ((∃ cs, fieldChars room level fs = .ok cs) ↔
      fieldsPass .short fs = true ∧ level + 1 + fieldsDepth fs ≤ room)
  | [], level, h => by simp [fieldChars, fieldsPass, fieldsDepth, Nat.succ_le_of_lt h]
  | (k, v) :: fs, level, h => by
    rw [fieldChars, exists_bind_both_iff, exists_chars_iff v (level + 1) h,
      exists_moreFields_iff fs level h, fieldsPass, fieldsDepth,
      Bool.and_eq_true, add_max_le_iff, and_and_and_comm]

theorem exists_moreFields_iff {room : Nat} : ∀ (fs : List (String × Json)) (level : Nat),
    level < room → ((∃ cs, moreFields room level fs = .ok cs) ↔
      fieldsPass .short fs = true ∧ level + 1 + fieldsDepth fs ≤ room)
  | [], level, h => by simp [moreFields, fieldsPass, fieldsDepth, Nat.succ_le_of_lt h]
  | (k, v) :: fs, level, h => by
    rw [moreFields, exists_bind_both_iff, exists_chars_iff v (level + 1) h,
      exists_moreFields_iff fs level h, fieldsPass, fieldsDepth,
      Bool.and_eq_true, add_max_le_iff, and_and_and_comm]

end

/-- A value has a text exactly if its whole numbers are short and there is room for its levels. -/
theorem exists_print_iff {room : Nat} {v : Json} :
    (∃ s, v.print room = .ok s) ↔ v.passes .short = true ∧ v.depth ≤ room := by
  have hchars := exists_chars_iff v 0 (Nat.zero_le room)
  rw [Nat.zero_add] at hchars
  rw [← hchars]
  simp only [print, map_eq_ok_iff]
  constructor
  · rintro ⟨_, cs, hcs, -⟩
    exact ⟨cs, hcs⟩
  · rintro ⟨cs, hcs⟩
    exact ⟨_, cs, hcs, rfl⟩

end ContractSurvey.Json
