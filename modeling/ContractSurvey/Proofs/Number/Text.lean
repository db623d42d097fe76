import ContractSurvey.Number.Quantity
import ContractSurvey.Proofs.Sequence.Outcome

/-!
# Proofs — Number — Text

What is asked of the numbers in some data (`NumberTest`): that doubles are finite, for a reader that
knows no others, and that whole numbers are short, since only those have a text
(`Quantity.exists_text_iff`).
-/

namespace ContractSurvey

structure NumberTest where
  whole : Int → Bool
  measured : Binary64 → Bool

namespace NumberTest

/-- Doubles are finite. -/
def finite : NumberTest := ⟨fun _ => true, (·.isFinite)⟩

/-- Whole numbers have a text. -/
def short : NumberTest := ⟨fun n => Whole.IsShort n, fun _ => true⟩

end NumberTest

namespace Quantity

/-- Whether a quantity passes a test. -/
def passes (t : NumberTest) : Quantity → Bool
  | .whole n => t.whole n
  | .measured x => t.measured x

theorem text_whole_eq_ok_iff {n : Int} {s : String} :
    (whole n).text = .ok s ↔ Whole.IsShort n ∧ toString n = s := by
  rw [text, Whole.text, Whole.ifShort]
  split <;> simp [Except.mapError, *]

/-- The quantities that have a text. -/
theorem exists_text_iff {q : Quantity} : (∃ s, q.text = .ok s) ↔ q.passes .short = true := by
  cases q with
  | whole n => simp [text_whole_eq_ok_iff, passes, NumberTest.short]
  | measured x => simp [text, passes, NumberTest.short]

end Quantity

end ContractSurvey
