import ContractSurvey.Number.Binary64

/-!
# Number — Quotient

Whole numbers and their quotients as doubles.  The numbers may have any size, so a result may lie
beyond every double; it is refused then, and `Binary64.isFinite_of_quotient` and
`Binary64.isFinite_of_converted` say that one that is not refused is finite.
-/

namespace ContractSurvey

/-- A number that lies beyond what it is to be written as. -/
inductive RangeError where
  /-- A quotient beyond the doubles. -/
  | quotient
  /-- An infinity where a whole number is wanted. -/
  | infinite
  /-- A whole number beyond the doubles. -/
  | conversion
  deriving DecidableEq, Repr

def RangeError.message : RangeError → String
  | .quotient => "integer division result too large for a float"
  | .infinite => "cannot convert float infinity to integer"
  | .conversion => "int too large to convert to float"

namespace Binary64

/-- The double nearest to the fraction `n / d`, if it is finite. -/
def quotient (n : Int) (d : Nat) : Except RangeError Binary64 :=
  if (ofRatio n d).isFinite then .ok (ofRatio n d) else .error .quotient

theorem quotient_eq_ok_iff {n : Int} {d : Nat} {x : Binary64} :
    quotient n d = .ok x ↔ ofRatio n d = x ∧ x.isFinite = true := by
  unfold quotient
  split <;> grind

theorem isFinite_of_quotient {n : Int} {d : Nat} {x : Binary64} (h : quotient n d = .ok x) :
    x.isFinite = true :=
  (quotient_eq_ok_iff.1 h).2

/-- The double nearest to a whole number, if it is finite. -/
def converted (n : Int) : Except RangeError Binary64 :=
  if (ofInt n).isFinite then .ok (ofInt n) else .error .conversion

theorem isFinite_of_converted {n : Int} {x : Binary64} (h : converted n = .ok x) :
    x.isFinite = true := by
  unfold converted at h
  split at h <;> grind

end Binary64

end ContractSurvey
