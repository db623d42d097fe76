/-!
# Number — Whole

Whole numbers as text.  One limit on the digits holds where a number is read and where it is
written, so that only a short number has a text (`Whole.text_eq_ok_iff`).  The limit matters for
numbers that are handed in.  A count of what is at hand is short in any memory there is, and is
written as it stands.
-/

namespace ContractSurvey

/-- The most digits of a whole number that is read or written. -/
def digitLimit : Nat := 4300

/-- Why a whole number has no text. -/
inductive DigitError where
  /-- It has more digits than are written. -/
  | tooMany
  deriving DecidableEq, Repr

def DigitError.message : DigitError → String
  | .tooMany =>
    "Exceeds the limit (" ++ toString digitLimit ++
      " digits) for integer string conversion; " ++
      "use sys.set_int_max_str_digits() to increase the limit"

namespace Whole

/-- The number of digits, whatever the sign. -/
def digitCount (n : Int) : Nat := (Nat.toDigits 10 n.natAbs).length

/-- A number of no more digits than are written. -/
def IsShort (n : Int) : Prop := digitCount n ≤ digitLimit

instance (n : Int) : Decidable (IsShort n) := inferInstanceAs (Decidable (_ ≤ _))

/-- What is written of a number, if it is short. -/
def ifShort (n : Int) (written : String) : Except DigitError String :=
  if IsShort n then .ok written else .error .tooMany

def text (n : Int) : Except DigitError String := ifShort n (toString n)

/-- A number is short if it has so few digits. -/
theorem isShort_of_natAbs_lt {n : Int} {k : Nat} (hk : 0 < k ∧ k ≤ digitLimit)
    (h : n.natAbs < Nat.pow 10 k) : IsShort n :=
  Nat.le_trans ((Nat.length_toDigits_le_iff (by decide) hk.1).mpr h) hk.2

/-- A number that is no greater than a short one is short. -/
theorem IsShort.of_natAbs_le {m n : Int} (hn : IsShort n) (h : m.natAbs ≤ n.natAbs) :
    IsShort m := by
  have hlt : n.natAbs < Nat.pow 10 (digitCount n) :=
    (Nat.length_toDigits_le_iff (by decide) Nat.length_toDigits_pos).mp (Nat.le_refl _)
  have hle : digitCount m ≤ digitCount n :=
    (Nat.length_toDigits_le_iff (by decide) Nat.length_toDigits_pos).mpr (Nat.lt_of_le_of_lt h hlt)
  exact Nat.le_trans hle hn

theorem ifShort_eq_ok_iff {n : Int} {written s : String} :
    ifShort n written = .ok s ↔ IsShort n ∧ written = s := by
  unfold ifShort
  split <;> simp [*]

theorem text_eq_ok_iff {n : Int} {s : String} : text n = .ok s ↔ IsShort n ∧ toString n = s :=
  ifShort_eq_ok_iff

end Whole

end ContractSurvey
