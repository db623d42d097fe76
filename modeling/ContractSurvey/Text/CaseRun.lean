/-!
# Text — CaseRun

A run of letters whose other case lies at one fixed distance.
-/

namespace ContractSurvey.Text

/-- The code points `first`, `first + step`, … up to `last`, each with its other case `shift`
away. -/
structure Run where
  first : Nat
  last : Nat
  step : Nat
  shift : Int

namespace Run

/-- Whether the code point lies on the run. -/
def covers (r : Run) (n : Nat) : Bool :=
  r.first ≤ n && n ≤ r.last && (n - r.first) % r.step == 0

/-- The other case of a code point on the run. -/
def moved (r : Run) (n : Nat) : Char := Char.ofNat (n + r.shift).toNat

end Run

end ContractSurvey.Text
