import ContractSurvey.Proofs.Number.Order

/-!
# Proofs — Number — Monotone

Rounding keeps the order.  A greater quotient is never rounded to a smaller double
(`nearest_le_nearest`), although the two may be rounded to different places: where the exponent
grows, the smaller mantissa has at most all of its bits and the greater one at least the first.

What follows is said of the doubles that are finite and carry no sign (`Unsigned`): products and
decimal places keep their order too.
-/

namespace ContractSurvey

/-! ### Rounded quotients -/

theorem roundDiv_mono {n n' : Nat} (d : Nat) (h : n ≤ n') : roundDiv n d ≤ roundDiv n' d := by
  rcases Nat.lt_or_eq_of_le (Nat.div_le_div_right (c := d) h) with hlt | heq
  · calc roundDiv n d ≤ n / d + 1 := roundDiv_le n d
      _ ≤ n' / d := hlt
      _ ≤ roundDiv n' d := le_roundDiv n' d
  · have hmod : n % d ≤ n' % d := by
      have hn := Nat.div_add_mod n d
      have hn' := Nat.div_add_mod n' d
      rw [heq] at hn
      omega
    simp only [roundDiv, ← heq]
    grind

namespace Binary64

/-! ### The nearest double -/

/-- The units of the double nearest to `n / d` units, as far as there are doubles. -/
def rounded (n d : Nat) : Nat :=
  roundDiv n (d * Nat.pow 2 ((n / d).log2 - 52)) * Nat.pow 2 ((n / d).log2 - 52)

theorem log2_le_log2 {n n' : Nat} (h : n ≤ n') : n.log2 ≤ n'.log2 := by
  by_cases hn : n = 0
  · simp [hn]
  · exact (Nat.le_log2 (by omega)).mpr (Nat.le_trans (Nat.log2_self_le hn) h)

theorem rounded_mono {n n' : Nat} (d : Nat) (h : n ≤ n') : rounded n d ≤ rounded n' d := by
  have he : (n / d).log2 - 52 ≤ (n' / d).log2 - 52 :=
    Nat.sub_le_sub_right (log2_le_log2 (Nat.div_le_div_right h)) 52
  have hle := (mantissa_bounds n d).1
  have hge := (mantissa_bounds n' d).2
  unfold rounded
  generalize (n / d).log2 - 52 = e at *
  generalize (n' / d).log2 - 52 = e' at *
  rcases Nat.lt_or_eq_of_le he with hlt | rfl
  · -- the mantissa below the step has at most 53 bits, the one above it has them all
    have hfull : Nat.pow 2 52 ≤ roundDiv n' (d * Nat.pow 2 e') := hge.resolve_left (by omega)
    calc roundDiv n (d * Nat.pow 2 e) * 2 ^ e ≤ 2 ^ 53 * 2 ^ e := Nat.mul_le_mul_right _ hle
      _ = 2 ^ 52 * 2 ^ (e + 1) := by rw [← Nat.pow_add, ← Nat.pow_add]; congr 1; omega
      _ ≤ 2 ^ 52 * 2 ^ e' := Nat.mul_le_mul_left _ (Nat.pow_le_pow_right Nat.two_pos hlt)
      _ ≤ roundDiv n' (d * Nat.pow 2 e') * 2 ^ e' := Nat.mul_le_mul_right _ hfull
  · exact Nat.mul_le_mul_right _ (roundDiv_mono _ h)

theorem rounded_mul_mul_right (n d : Nat) {t : Nat} (ht : 0 < t) :
    rounded (n * t) (d * t) = rounded n d := by
  rw [rounded, rounded, Nat.mul_div_mul_right _ _ ht, Nat.mul_right_comm d t,
    roundDiv_mul_mul_right _ _ ht]

theorem rounded_le_rounded {n d n' d' : Nat} (hd : 0 < d) (hd' : 0 < d') (h : n * d' ≤ n' * d) :
    rounded n d ≤ rounded n' d' := by
  calc rounded n d = rounded (n * d') (d * d') := (rounded_mul_mul_right n d hd').symm
    _ ≤ rounded (n' * d) (d * d') := rounded_mono _ h
    _ = rounded n' d' := by rw [Nat.mul_comm d d', rounded_mul_mul_right n' d' hd]

/-- A double whose mantissa fills its bits lies in its own power of two. -/
theorem le_units {m e k : Nat} (hm : 2 ^ 52 ≤ m) (hk : k ≤ 52 + e) : 2 ^ k ≤ m * 2 ^ e := by
  calc 2 ^ k ≤ 2 ^ (52 + e) := Nat.pow_le_pow_right Nat.two_pos hk
    _ = 2 ^ 52 * 2 ^ e := Nat.pow_add 2 52 e
    _ ≤ m * 2 ^ e := Nat.mul_le_mul_right _ hm

theorem magnitude_ofParts (s : Bool) {m e : Nat} (hm : m < Nat.pow 2 53)
    (he : e = 0 ∨ Nat.pow 2 52 ≤ m) :
    (ofParts s m e).magnitude = min (m * Nat.pow 2 e) (Nat.pow 2 2098) := by
  unfold ofParts
  split
  · next h =>
      simp only [magnitude]
      generalize hk : 2098 = k
      exact (Nat.min_eq_left (Nat.le_of_lt (units_lt h (Nat.le_of_eq hk)))).symm
  · next h =>
      have hexponent : 2046 ≤ e := by
        refine Nat.le_of_not_lt fun hlt => h ⟨hm, ?_, he⟩
        omega
      simp only [magnitude]
      generalize hk : 2098 = k
      exact (Nat.min_eq_right (le_units (he.resolve_left (by omega)) (by omega))).symm

/-- The nearest double has the rounded units, unless these are beyond all doubles. -/
theorem magnitude_nearest (s : Bool) (n d : Nat) :
    (nearest s n d).magnitude = min (rounded n d) (Nat.pow 2 2098) := by
  obtain ⟨hle, hge⟩ := mantissa_bounds n d
  simp only [nearest, rounded]
  generalize (n / d).log2 - 52 = e at *
  generalize roundDiv n (d * Nat.pow 2 e) = m at *
  split
  · next hm =>
      -- the carry moves the mantissa by one bit
      have hcarry : Nat.pow 2 52 * Nat.pow 2 (e + 1) = Nat.pow 2 53 * Nat.pow 2 e :=
        (Nat.pow_add 2 52 (e + 1)).symm.trans ((congrArg _ (by omega)).trans (Nat.pow_add 2 53 e))
      rw [magnitude_ofParts s (by decide) (.inr (Nat.le_refl _)), hm, hcarry]
  · next hne => exact magnitude_ofParts s (Nat.lt_of_le_of_ne hle hne) hge

theorem isNegative_ofParts (s : Bool) (m e : Nat) : (ofParts s m e).isNegative = s := by
  unfold ofParts
  split <;> rfl

theorem isNegative_nearest (s : Bool) (n d : Nat) : (nearest s n d).isNegative = s := by
  simp only [nearest]
  split <;> exact isNegative_ofParts _ _ _

/-- **Rounding keeps the order**: the double nearest to the greater quotient is the greater one. -/
theorem nearest_le_nearest {n d n' d' : Nat} (hd : 0 < d) (hd' : 0 < d') (h : n * d' ≤ n' * d) :
    nearest false n d ≤ nearest false n' d' := by
  rw [le_iff_units (isNaN_nearest _ _ _) (isNaN_nearest _ _ _), units, units, isNegative_nearest,
    isNegative_nearest, magnitude_nearest, magnitude_nearest]
  have hle := rounded_le_rounded hd hd' h
  simp only [Bool.false_eq_true, if_false]
  omega

/-! ### Finite doubles without a sign -/

/-- The double is finite and carries no sign. -/
def Unsigned (x : Binary64) : Prop := x.isFinite = true ∧ x.isNegative = false

section

variable {x y z : Binary64}

theorem Unsigned.isNaN (h : x.Unsigned) : x.isNaN = false := by
  cases x with
  | nan => cases h.1
  | infinite s => rfl
  | finite s m e hc => rfl

theorem Unsigned.le_iff (hx : x.Unsigned) (hy : y.Unsigned) :
    x ≤ y ↔ x.magnitude ≤ y.magnitude := by
  rw [le_iff_units hx.isNaN hy.isNaN, units, units, hx.2, hy.2]
  simp

/-- Without a sign, what lies below a finite double is finite. -/
theorem isFinite_of_le (hx : x.isNegative = false) (h : x ≤ y) (hy : y.isFinite = true) :
    x.isFinite = true := by
  cases x with
  | nan => cases h.1
  | infinite s =>
      obtain rfl : s = false := hx
      exact absurd h.2.2 (Int.not_le.mpr (units_lt_infinite hy))
  | finite s m e hc => rfl

theorem mul_eq_nearest (hx : x.isFinite = true) (hy : y.isFinite = true) :
    x * y = nearest (x.isNegative != y.isNegative) (x.magnitude * y.magnitude) one := by
  cases x with
  | nan => cases hx
  | infinite s => cases hx
  | finite s m e hc =>
      cases y with
      | nan => cases hy
      | infinite t => cases hy
      | finite t m' e' hc' =>
          show Binary64.mul _ _ = _
          simp only [Binary64.mul]

theorem roundTo_eq_nearest (places : Nat) (hx : x.isFinite = true) :
    x.roundTo places =
      nearest x.isNegative (roundDiv (x.magnitude * 10 ^ places) one * one) (10 ^ places) := by
  cases x with
  | nan => cases hx
  | infinite s => cases hx
  | finite s m e hc => rfl

theorem Unsigned.mul_le_mul_right (hx : x.Unsigned) (hy : y.Unsigned) (hz : z.Unsigned)
    (h : x ≤ y) : x * z ≤ y * z := by
  rw [mul_eq_nearest hx.1 hz.1, mul_eq_nearest hy.1 hz.1, hx.2, hy.2, hz.2]
  refine nearest_le_nearest one_pos one_pos ?_
  exact Nat.mul_le_mul_right _ (Nat.mul_le_mul_right _ ((hx.le_iff hy).mp h))

theorem Unsigned.roundTo_le_roundTo (places : Nat) (hx : x.Unsigned) (hy : y.Unsigned)
    (h : x ≤ y) : x.roundTo places ≤ y.roundTo places := by
  rw [roundTo_eq_nearest places hx.1, roundTo_eq_nearest places hy.1, hx.2, hy.2]
  have hten : 0 < 10 ^ places := Nat.pow_pos (by decide)
  refine nearest_le_nearest hten hten (Nat.mul_le_mul_right _ (Nat.mul_le_mul_right _ ?_))
  exact roundDiv_mono _ (Nat.mul_le_mul_right _ ((hx.le_iff hy).mp h))

end

/-! ### Ratios of natural numbers -/

section

variable {n d n' d' : Nat}

theorem ofRatio_natCast (n d : Nat) : ofRatio n d = nearest false (n * one) d := by
  rw [ofRatio, Int.natAbs_natCast, decide_eq_false (by omega)]

/-- The greater ratio is the greater double. -/
theorem ofRatio_le_ofRatio (hd : 0 < d) (hd' : 0 < d') (h : n * d' ≤ n' * d) :
    ofRatio n d ≤ ofRatio n' d' := by
  rw [ofRatio_natCast, ofRatio_natCast]
  refine nearest_le_nearest hd hd' ?_
  rw [Nat.mul_right_comm n, Nat.mul_right_comm n']
  exact Nat.mul_le_mul_right _ h

/-- Equal ratios are one double. -/
theorem ofRatio_congr (hd : 0 < d) (hd' : 0 < d') (h : n * d' = n' * d) :
    ofRatio n d = ofRatio n' d' := by
  rw [ofRatio_natCast, ofRatio_natCast]
  refine nearest_congr false hd hd' ?_
  rw [Nat.mul_right_comm n, Nat.mul_right_comm n', h]

/-- A share is a finite double without a sign. -/
theorem unsigned_ofRatio (hd : 0 < d) (h : n ≤ d) : (ofRatio n d).Unsigned := by
  rw [ofRatio_natCast]
  exact ⟨isFinite_nearest_mul_one (k := 1) false (by decide) (by omega), isNegative_nearest _ _ _⟩

end

end Binary64

end ContractSurvey
