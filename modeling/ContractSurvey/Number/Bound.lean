import ContractSurvey.Number.Binary64

/-!
# Number — Bound

The doubles on the two sides of a whole number.  A double lies below a whole number exactly when it
lies below the least double from that number on, so that a bound given as a whole number may be
kept as a double: `above` for a lower bound that may be met, `below` for one that must be passed.
-/

namespace ContractSurvey.Binary64

/-- How far apart the doubles around a whole number of this size lie, at least one. -/
def spacing (n : Nat) : Nat := Nat.pow 2 (n.log2 - 52)

def floorOf (n : Nat) : Nat := n / spacing n * spacing n

def ceilOf (n : Nat) : Nat := (n + spacing n - 1) / spacing n * spacing n

/-- The greatest finite double. -/
def largest : Binary64 := ofParts false (Nat.pow 2 53 - 1) 2045

/-- The greatest finite double up to a natural number. -/
def under (n : Nat) : Binary64 :=
  let x := ofInt (floorOf n)
  if x.isFinite then x else largest

/-- The least double from a whole number on. -/
def above (n : Int) : Binary64 := if 0 ≤ n then ofInt (ceilOf n.toNat) else -(under n.natAbs)

/-- The greatest double up to a whole number. -/
def below (n : Int) : Binary64 := if 0 ≤ n then under n.toNat else -(ofInt (ceilOf n.natAbs))

theorem floorOf_le (n : Nat) : floorOf n ≤ n := Nat.div_mul_le_self _ _

theorem le_ceilOf (n : Nat) : n ≤ ceilOf n := by
  have hs : 0 < spacing n := Nat.pow_pos (by decide)
  have := Nat.div_add_mod (n + spacing n - 1) (spacing n)
  have := Nat.mod_lt (n + spacing n - 1) hs
  unfold ceilOf
  rw [Nat.mul_comm]
  omega

end ContractSurvey.Binary64
