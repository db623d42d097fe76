import ContractSurvey.Number.Binary64

/-!
# Number — Decimal

The fewest decimal digits that read back to a double.  For one digit, two, up to seventeen, the
value's neighbours on the grid of that many digits are read back, the nearer one first and the even
one of two equally near; the first that reads back is chosen.

`Binary64.shortest_reads` says that the digits chosen on a grid read back.
-/

namespace ContractSurvey

/-- The number `coefficient * 10 ^ exponent`. -/
structure Decimal where
  coefficient : Nat
  exponent : Int
  deriving DecidableEq, Repr

namespace Decimal

/-- The number of decimal digits, none for zero. -/
def width (n : Nat) : Nat :=
  if n = 0 then 0 else (Nat.toDigits 10 n).length

/-- The power of ten at the first digit of `n / d`, for a positive quotient. -/
def leadingPower (n d : Nat) : Int :=
  if d ≤ n then (width (n / d) : Int) - 1 else -(width ((d + n - 1) / n - 1) : Int)

/-- `n / d` counted in steps of `10 ^ power`, as a fraction. -/
def scaled (n d : Nat) (power : Int) : Nat × Nat :=
  if 0 ≤ power then (n, d * Nat.pow 10 power.toNat) else (n * Nat.pow 10 (-power).toNat, d)

end Decimal

namespace Binary64

/-- The double that a decimal reads as. -/
def ofDecimalNumber (d : Decimal) : Binary64 := ofDecimal false d.coefficient d.exponent

/-- Five to the power of the smallest exponent's size: with it every finite double is a decimal. -/
@[irreducible] def allDigits : Nat := Nat.pow 5 1074

/-- The neighbour, on the grid of this many digits, that reads back to the double `x` of `n`
units. -/
def onGrid? (x : Binary64) (n digits : Nat) : Option Decimal :=
  let power := Decimal.leadingPower n one - digits + 1
  let (a, b) := Decimal.scaled n one power
  ([⟨roundDiv a b, power⟩, ⟨a / b, power⟩, ⟨a / b + 1, power⟩] : List Decimal).find?
    fun d => ofDecimalNumber d = x

/-- The fewest digits that read back to the positive double of `n` units; should no grid have any,
all its digits. -/
def shortest (x : Binary64) (n : Nat) : Decimal :=
  ((List.range' 1 17).findSome? (onGrid? x n)).getD ⟨n * allDigits, -1074⟩

theorem onGrid?_reads {x : Binary64} {n k : Nat} {d : Decimal} (h : onGrid? x n k = some d) :
    ofDecimalNumber d = x := by
  unfold onGrid? at h
  simpa using List.find?_some h

theorem shortest_reads {x : Binary64} {n k : Nat} (hk : k ∈ List.range' 1 17)
    (h : (onGrid? x n k).isSome) : ofDecimalNumber (shortest x n) = x := by
  have : ((List.range' 1 17).findSome? (onGrid? x n)).isSome := by
    rw [List.isSome_findSome?]; exact List.any_eq_true.2 ⟨k, hk, h⟩
  obtain ⟨d, hd⟩ := Option.isSome_iff_exists.1 this
  obtain ⟨j, -, hj⟩ := List.exists_of_findSome?_eq_some hd
  simp only [shortest, hd, Option.getD_some]
  exact onGrid?_reads hj

end Binary64

end ContractSurvey
