import ContractSurvey.Proofs.Profile.Extension
import ContractSurvey.Proofs.Text.Occurrence

/-!
# Proofs — Profile — Confidence

What the confidence in a selector is.  Two facts count: the digits of the selector recur in the
text, and the word that supports the selector stands there (`Supported`).  The steps of the sum are
not exact (`sumIn` may miss a tenth by a little), but rounding to four places removes what they
leave, and as the sum never reaches beyond 1 nothing is cut off (`not_one_lt_sumIn`).

The main statement is `confidenceIn_eq_tenths`: the confidence is the double nearest to seven
tenths, two tenths more for digits that recur and one more for a word in support.
-/

namespace ContractSurvey.Pattern

open Text (Recurs StandsAt)

variable {s : Selector} {cs : List Char}

/-! ### The word in support -/

/-- Only one selector has a word in its support, and the word stands in the text. -/
def Supported (s : Selector) (cs : List Char) : Prop :=
  s = "0x70a08231" ∧ ∃ i, StandsAt "balanceof".toList cs i

theorem supported_iff : Supported s cs ↔
    (s = "0x70a08231" && Text.occursIn "balanceof".toList cs) = true := by
  rw [Supported, Text.exists_standsAt_iff, Bool.and_eq_true, decide_eq_true_eq, Text.occursIn_iff]

instance (s : Selector) (cs : List Char) : Decidable (Supported s cs) :=
  decidable_of_iff _ supported_iff.symm

/-! ### The sum -/

/-- The confidence as it is summed up, before it is limited to 1 and rounded. -/
def sumIn (s : Selector) (cs : List Char) : Binary64 :=
  let c := baseConfidence
  let c := if 1 < Text.occurrences (s.toList.drop 2) cs then c + recurrenceBonus else c
  match hints.lookup s with
  | some (word, bonus) => if Text.occursIn word.toList cs then c + bonus else c
  | none => c

theorem confidenceIn_eq_sumIn (s : Selector) (cs : List Char) :
    confidenceIn s cs = (if (1 : Binary64) < sumIn s cs then 1 else sumIn s cs).roundTo 4 := rfl

/-- With all that may be added, the sum does not pass 1. -/
theorem not_one_lt_sumIn (s : Selector) (cs : List Char) : ¬ (1 : Binary64) < sumIn s cs := by
  rcases hints_lookup s with ⟨-, hword⟩ | ⟨-, hnone⟩
  · simp only [sumIn, hword]
    split <;> split <;> decide +kernel
  · simp only [sumIn, hnone]
    split <;> decide +kernel

/-- A sum by itself may miss a tenth. -/
example : baseConfidence + recurrenceBonus < 0.9 := by decide +kernel

/-! ### The confidence -/

theorem confidenceIn_eq_certainty (s : Selector) (cs : List Char) : confidenceIn s cs =
    certainty (decide (Recurs (s.toList.drop 2) cs)) (decide (Supported s cs)) := by
  have hsupported : (s = "0x70a08231" && Text.occursIn "balanceof".toList cs) =
      decide (Supported s cs) := by
    rw [Bool.eq_iff_iff, decide_eq_true_eq, supported_iff]
  rw [confidenceIn_eq, hsupported]
  simp only [Text.one_lt_occurrences_iff]

/-- The certainty in tenths. -/
theorem certainty_eq_ofRatio : ∀ recurs hinted : Bool, certainty recurs hinted =
    Binary64.ofRatio (7 + (if recurs then 2 else 0) + if hinted then 1 else 0) 10 := by
  decide +kernel

/-- **The confidence in a selector.**  It is 0.7, 0.8, 0.9 or 1, the double nearest to seven tenths
and two more if the digits behind the mark recur and one more if the selector has a word in its
support.  This is what remains of the sum after rounding, and the limit of 1 does not change it. -/
theorem confidenceIn_eq_tenths (s : Selector) (cs : List Char) :
    confidenceIn s cs =
      (if Recurs (s.toList.drop 2) cs then if Supported s cs then 1 else 0.9
       else if Supported s cs then 0.8 else 0.7) ∧
    confidenceIn s cs = Binary64.ofRatio (7 + (if Recurs (s.toList.drop 2) cs then 2 else 0) +
      if Supported s cs then 1 else 0) 10 ∧
    confidenceIn s cs = (sumIn s cs).roundTo 4 ∧ ¬ (1 : Binary64) < sumIn s cs := by
  refine ⟨?_, ?_, ?_, not_one_lt_sumIn s cs⟩
  · rw [confidenceIn_eq_certainty]
    by_cases hrecurs : Recurs (s.toList.drop 2) cs <;> by_cases hsupported : Supported s cs <;>
      simp [hrecurs, hsupported, certainty]
  · rw [confidenceIn_eq_certainty, certainty_eq_ofRatio]
    simp only [decide_eq_true_eq]
  · rw [confidenceIn_eq_sumIn, if_neg (not_one_lt_sumIn s cs)]

end ContractSurvey.Pattern
