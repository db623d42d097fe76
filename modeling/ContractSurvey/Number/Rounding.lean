/-!
# Number — Rounding

`roundDiv n d` is the whole number nearest to the quotient `n / d`, a half going to the even
neighbour.  Every rounding in the library is this one, applied to an exact quotient: binary64
arithmetic, rounding to decimal places and the fixed-place texts.  `roundDiv_mul` says that a
whole quotient is kept.
-/

namespace ContractSurvey

/-- The whole number nearest to `n / d`; a half goes to the even neighbour. -/
def roundDiv (n d : Nat) : Nat :=
  let q := n / d
  let r := n % d
  if 2 * r < d then q
  else if d < 2 * r then q + 1
  else q + q % 2

theorem roundDiv_mul (k : Nat) {d : Nat} (h : 0 < d) : roundDiv (k * d) d = k := by
  simp [roundDiv, Nat.mul_div_cancel k h, h]

theorem roundDiv_zero {d : Nat} (h : 0 < d) : roundDiv 0 d = 0 := by
  simpa using roundDiv_mul 0 h

/-- The rounded quotient is the quotient or the number after it. -/
theorem roundDiv_eq_or (n d : Nat) : roundDiv n d = n / d ∨ roundDiv n d = n / d + 1 := by
  unfold roundDiv
  rcases Nat.mod_two_eq_zero_or_one (n / d) with h | h <;> grind

end ContractSurvey
