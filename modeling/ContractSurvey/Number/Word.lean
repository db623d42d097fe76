/-!
# Number — Word

Whole numbers that a signed word holds: 64 bits for an index, 32 bits for a number of the calendar.
-/

namespace ContractSurvey

/-- Whether a number fits a signed word of 64 bits. -/
def fitsWord (n : Int) : Bool := -9223372036854775808 ≤ n && n ≤ 9223372036854775807

/-- Why a number is no signed word of 32 bits. -/
inductive WordFault where
  /-- It is not even one of 64 bits. -/
  | beyondWord
  | above
  | below
  deriving DecidableEq, Repr

namespace WordFault

def of? (n : Int) : Option WordFault :=
  if !fitsWord n then some .beyondWord
  else if 2147483647 < n then some .above
  else if n < -2147483648 then some .below
  else none

theorem of?_eq_none_iff {n : Int} : of? n = none ↔ -2147483648 ≤ n ∧ n ≤ 2147483647 := by
  unfold of? fitsWord
  grind

end WordFault

end ContractSurvey
