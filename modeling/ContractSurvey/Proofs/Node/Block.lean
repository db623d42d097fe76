import ContractSurvey.Proofs.Node.Steady
import ContractSurvey.Proofs.Sequence.Outcome
import Mathlib.Data.List.TakeWhile
import Mathlib.Data.Nat.Digits.Defs

/-!
# Proofs — Node — Block

Which block a text names, and which one a node is asked about.

* `decimalNumber?_eq_some_iff`: a row of decimal digits, of any script, is read in base ten.
  Decimal digits are digits, which is said of the two tables (`isDigit_of_decimalValue?`), so a text
  is read as a number before it is a tag.
* `ofText_eq_ok_iff`: a text names a block exactly if it writes a number in at most `digitLimit`
  digits, or has something in it that is no digit, or nothing at all.
* `blockFor_eq_blockOr`: a fetcher asks about the block it is given, unless that is block zero or
  the empty tag, which count as none.
-/

namespace ContractSurvey

namespace Text

/-- The characters are decimal digits that write the number in base ten. -/
def WritesNumber (cs : List Char) (n : Nat) : Prop :=
  cs ≠ [] ∧ ∃ ds, List.Forall₂ (fun c d => decimalValue? c = some d) cs ds ∧
    n = Nat.ofDigits 10 ds.reverse

theorem foldl_eq_ofDigits (ds : List Nat) :
    ds.foldl (fun n d => 10 * n + d) 0 = Nat.ofDigits 10 ds.reverse := by
  rw [Nat.ofDigits_eq_foldr, List.foldr_reverse]
  congr 1
  funext n d
  exact Nat.add_comm _ _

theorem decimalNumber?_eq_some_iff {cs : List Char} {n : Nat} :
    decimalNumber? cs = some n ↔ WritesNumber cs n := by
  cases cs with
  | nil => simp [decimalNumber?, WritesNumber]
  | cons c cs =>
      have hread : decimalNumber? (c :: cs) = ((c :: cs).mapM decimalValue?).map
          fun ds => ds.foldl (fun n d => 10 * n + d) 0 := rfl
      simp only [hread, Option.map_eq_some_iff, mapM_eq_some_iff, foldl_eq_ofDigits]
      constructor
      · rintro ⟨ds, hds, rfl⟩
        exact ⟨List.cons_ne_nil _ _, ds, hds, rfl⟩
      · rintro ⟨-, ds, hds, rfl⟩
        exact ⟨ds, hds, rfl⟩

/-- Every row of decimal digits is among the digits. -/
theorem decimalBlocks_within_digitBlocks :
    ∀ b ∈ decimalBlocks, ∃ d ∈ digitBlocks, d.1 ≤ b.1 ∧ b.2 ≤ d.2 := by
  decide +kernel

theorem isDigit_of_decimalValue? {c : Char} {d : Nat} (h : decimalValue? c = some d) :
    isDigit c = true := by
  unfold decimalValue? at h
  unfold isDigit
  split at h
  · next hascii =>
      rw [if_pos hascii]
      split at h
      · assumption
      · cases h
  · next hbeyond =>
      rw [if_neg hbeyond, List.any_eq_true]
      obtain ⟨b, hb, -⟩ := Option.map_eq_some_iff.mp h
      have hrange := List.find?_some hb
      obtain ⟨e, he, hlow, hhigh⟩ :=
        decimalBlocks_within_digitBlocks b (List.mem_of_find?_eq_some hb)
      rw [Bool.and_eq_true, decide_eq_true_eq, decide_eq_true_eq] at hrange
      refine ⟨e, he, ?_⟩
      rw [Bool.and_eq_true, decide_eq_true_eq, decide_eq_true_eq]
      exact ⟨hlow.trans hrange.1, hrange.2.trans hhigh⟩

theorem WritesNumber.isSome {cs : List Char} {n : Nat} (h : WritesNumber cs n) :
    ∀ c ∈ cs, (decimalValue? c).isSome = true := by
  obtain ⟨-, ds, hds, -⟩ := h
  intro c hc
  induction hds with
  | nil => cases hc
  | cons hd _ ih =>
      rcases List.mem_cons.mp hc with rfl | hc
      · rw [hd]
        rfl
      · exact ih hc

end Text

namespace Block

/-- The text names the block: a number that is not too long, or as it stands. -/
inductive Names : String → Block → Prop
  | number {t : String} {n : Nat} (writes : Text.WritesNumber t.toList n)
      (short : t.toList.length ≤ digitLimit) : Names t (.number n)
  | tag {t : String} (other : ∃ c ∈ t.toList, Text.isDigit c = false) : Names t (.tag t)
  | empty : Names "" (.tag "")

theorem ofText_of_writesNumber {t : String} {n : Nat} (h : Text.WritesNumber t.toList n)
    (hshort : t.toList.length ≤ digitLimit) : ofText t = .ok (.number n) := by
  have hdigits : t.toList.all Text.isDigit = true := by
    refine List.all_eq_true.mpr fun c hc => ?_
    obtain ⟨d, hd⟩ := Option.isSome_iff_exists.mp (h.isSome c hc)
    exact Text.isDigit_of_decimalValue? hd
  have hdecimals : t.toList.takeWhile (fun c => (Text.decimalValue? c).isSome) = t.toList :=
    List.takeWhile_eq_self_iff.mpr h.isSome
  have hempty : t.toList.isEmpty = false := by
    rw [List.isEmpty_eq_false_iff]
    exact h.1
  simp only [ofText, hempty, hdigits, hdecimals, Bool.not_true, Bool.or_self, Bool.false_eq_true,
    if_false, Nat.not_lt.mpr hshort, Text.decimalNumber?_eq_some_iff.mpr h]

/-- **Blocks by their texts**: a text names a block if it writes a number that is not too long, has
something in it that is no digit, or is empty. -/
theorem ofText_eq_ok_iff {t : String} {b : Block} : ofText t = .ok b ↔ Names t b := by
  constructor
  · intro h
    unfold ofText at h
    dsimp only at h
    split at h
    · next htag =>
        obtain rfl := Except.ok.inj h
        rcases Bool.or_eq_true_iff.mp htag with hempty | hother
        · obtain rfl : t = "" := String.toList_eq_nil_iff.mp (List.isEmpty_iff.mp hempty)
          exact .empty
        · refine .tag ?_
          simpa using hother
    · split at h
      · cases h
      · next hlimit =>
          split at h
          · next n hn =>
              obtain rfl := Except.ok.inj h
              have hwrites := Text.decimalNumber?_eq_some_iff.mp hn
              rw [List.takeWhile_eq_self_iff.mpr hwrites.isSome] at hlimit
              exact .number hwrites (Nat.not_lt.mp hlimit)
          · cases h
  · rintro (⟨hwrites, hshort⟩ | ⟨c, hc, hother⟩ | _)
    · exact ofText_of_writesNumber hwrites hshort
    · refine ofText_of_not_isDigit (List.all_eq_false.mpr ⟨c, hc, ?_⟩)
      rw [hother]
      exact Bool.false_ne_true
    · rfl

end Block

/-! ### The block of a question -/

/-- The questions about some addresses at a block; an address without a checksum form is none. -/
def asked (checksum : String → Except String String) (block : Block) (addresses : List String) :
    List Question :=
  addresses.filterMap fun a => (checksum a).toOption.map fun c => .code c block

/-- The block to ask about: block zero and the empty tag count as none, as in `blockFor`. -/
def blockOr (default : Block) : Option Block → Block
  | none => default
  | some b => if b = .number 0 ∨ b = .tag "" then default else b

theorem Fetcher.blockFor_eq_blockOr {σ τ : Type} (f : Fetcher σ τ) (given : Option Block) :
    f.blockFor given = blockOr f.defaultBlock given := by
  unfold blockFor
  split
  · rfl
  · rfl
  · rfl
  · next b hzero hempty =>
      have hother : ¬ (b = .number 0 ∨ b = .tag "") := by
        rintro (rfl | rfl)
        · exact hzero rfl
        · exact hempty rfl
      exact (if_neg hother).symm

theorem asked_eq_filterMap {σ τ : Type} (f : Fetcher σ τ) (given : Option Block)
    (addresses : List String) :
    addresses.filterMap (f.question? given) =
      asked f.checksum (blockOr f.defaultBlock given) addresses := by
  rw [← f.blockFor_eq_blockOr]
  rfl

theorem Fetcher.questions_code_eq_asked {σ τ : Type} [Add τ] [Sub τ] [LT τ] [DecidableLT τ]
    (f : Fetcher σ τ) (address : String) (given : Option Block) (l : Line σ τ) :
    questions (f.code address given l).2.events =
      questions l.events ++ asked f.checksum (blockOr f.defaultBlock given) [address] := by
  rw [questions_code, ← asked_eq_filterMap, List.filterMap_cons]
  cases f.question? given address <;> rfl

end ContractSurvey
