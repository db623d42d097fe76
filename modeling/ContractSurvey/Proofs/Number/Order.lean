import ContractSurvey.Proofs.Number.Nearest

/-!
# Proofs — Number — Order

Doubles that are numbers are ordered as their units are, so the order is total on them
(`not_lt_iff`), and neither rounding nor a ratio ever gives NaN.  A positive whole number stays
positive as a double (`ofInt_pos`), and below a finite double there is no positive infinity
(`isFinite_of_between`).
-/

namespace ContractSurvey.Binary64

/-! ### The order of numbers -/

theorem eq_nan_of_isNaN {x : Binary64} (h : x.isNaN = true) : x = .nan := by
  cases x with
  | nan => rfl
  | infinite s => cases h
  | finite s m e hc => cases h

theorem le_iff_units {x y : Binary64} (hx : x.isNaN = false) (hy : y.isNaN = false) :
    x ≤ y ↔ x.units ≤ y.units :=
  ⟨fun h => h.2.2, fun h => ⟨hx, hy, h⟩⟩

protected theorem le_trans {x y z : Binary64} (hxy : x ≤ y) (hyz : y ≤ z) : x ≤ z :=
  ⟨hxy.1, hyz.2.1, Int.le_trans hxy.2.2 hyz.2.2⟩

theorem not_lt_iff {x y : Binary64} (hx : x.isNaN = false) (hy : y.isNaN = false) :
    ¬ x < y ↔ y ≤ x := by
  rw [le_iff_units hy hx]
  exact ⟨fun h => Int.not_lt.mp fun hlt => h ⟨hx, hy, hlt⟩,
    fun h hlt => Int.not_lt.mpr h hlt.2.2⟩

theorem not_lt_of_le {x y : Binary64} (h : x ≤ y) : ¬ y < x := (not_lt_iff h.2.1 h.1).mpr h

/-! ### Results that are numbers -/

theorem isNaN_ofParts (s : Bool) (m e : Nat) : (ofParts s m e).isNaN = false := by
  unfold ofParts
  split <;> rfl

theorem isNaN_nearest (s : Bool) (n d : Nat) : (nearest s n d).isNaN = false := by
  unfold nearest
  dsimp only
  split <;> exact isNaN_ofParts _ _ _

theorem isNaN_ofRatio (n : Int) (d : Nat) : (ofRatio n d).isNaN = false :=
  isNaN_nearest _ _ _

theorem isNaN_roundTo {places : Nat} {x : Binary64} (hx : x.isNaN = false) :
    (x.roundTo places).isNaN = false := by
  cases x with
  | nan => cases hx
  | infinite s => rfl
  | finite s m e h =>
      rw [roundTo]
      exact isNaN_nearest _ _ _

/-- A sum with a finite number is a number. -/
theorem isNaN_add {x y : Binary64} (hx : x.isNaN = false) (hy : y.isFinite = true) :
    (x + y).isNaN = false := by
  show (Binary64.add x y).isNaN = false
  cases y with
  | nan => cases hy
  | infinite s => cases hy
  | finite t m e h =>
      cases x with
      | nan => cases hx
      | infinite s => rfl
      | finite s m' e' h' =>
          simp only [Binary64.add]
          split
          · exact isNaN_ofParts _ _ _
          · exact isNaN_nearest _ _ _

/-- A product with a finite number other than zero is a number. -/
theorem isNaN_mul {x y : Binary64} (hx : x.isNaN = false) (hy : y.isFinite = true)
    (hne : y.magnitude ≠ 0) : (x * y).isNaN = false := by
  cases y with
  | nan => cases hy
  | infinite s => cases hy
  | finite t m e h =>
      cases x with
      | nan => cases hx
      | infinite s =>
          have hpow : (infinite s).magnitude ≠ 0 := by
            rw [magnitude]
            generalize 2098 = n
            exact Nat.ne_of_gt (Nat.pow_pos Nat.two_pos)
          show (Binary64.mul _ _).isNaN = false
          simp only [Binary64.mul, hpow, hne, or_self, if_false, isNaN]
      | finite s m' e' h' =>
          show (Binary64.mul _ _).isNaN = false
          rw [Binary64.mul]
          exact isNaN_nearest _ _ _

/-- The finite doubles are the ones with a nearest whole number. -/
theorem isSome_round? (x : Binary64) : x.round?.isSome = x.isFinite := by cases x <;> rfl

/-! ### Positive numbers -/

theorem units_infinite_pos : 0 < (infinite false).units := by
  rw [units, magnitude, isNegative, if_neg Bool.false_ne_true]
  generalize 2098 = n
  exact Int.natCast_pos.mpr (Nat.two_pow_pos n)

theorem units_ofParts_pos {m e : Nat} (hm : 0 < m) : 0 < (ofParts false m e).units := by
  unfold ofParts
  split
  · rw [units, magnitude, isNegative, if_neg Bool.false_ne_true]
    exact Int.natCast_pos.mpr (Nat.mul_pos hm (Nat.two_pow_pos e))
  · exact units_infinite_pos

theorem mantissa_pos {n : Nat} (hn : 0 < n) :
    0 < roundDiv n (1 * Nat.pow 2 ((n / 1).log2 - 52)) := by
  refine Nat.lt_of_lt_of_le ?_ (le_roundDiv _ _)
  rw [Nat.one_mul, Nat.div_one]
  refine Nat.div_pos ?_ (Nat.two_pow_pos _)
  calc 2 ^ (n.log2 - 52) ≤ 2 ^ n.log2 := Nat.pow_le_pow_right Nat.two_pos (Nat.sub_le _ _)
    _ ≤ n := Nat.log2_self_le (Nat.ne_of_gt hn)

/-- The double nearest to at least one unit is positive. -/
theorem units_nearest_pos {n : Nat} (hn : 0 < n) : 0 < (nearest false n 1).units := by
  simp only [nearest]
  split
  · exact units_ofParts_pos (Nat.two_pow_pos 52)
  · exact units_ofParts_pos (mantissa_pos hn)

/-- A positive whole number is a positive double, or infinity. -/
theorem ofInt_pos {n : Int} (h : 0 < n) : (0 : Binary64) < ofInt n := by
  refine ⟨isNaN_ofRatio _ _, isNaN_ofRatio _ _, ?_⟩
  have hzero : (0 : Binary64).units = 0 := by decide +kernel
  have hsign : decide (n < 0) = false := decide_eq_false (by omega)
  rw [hzero, ofInt, ofRatio, hsign]
  exact units_nearest_pos (Nat.mul_pos (by omega) one_pos)

theorem units_lt_infinite {x : Binary64} (hx : x.isFinite = true) :
    x.units < (infinite false).units := by
  cases x with
  | nan => cases hx
  | infinite s => cases hx
  | finite s m e h =>
      have hlt (k : Nat) (hk : 2098 ≤ k) : m * Nat.pow 2 e < Nat.pow 2 k := units_lt h hk
      have hall := hlt 2098 (Nat.le_refl 2098)
      rw [units, units, magnitude, magnitude, isNegative, isNegative, if_neg Bool.false_ne_true]
      generalize 2098 = k at hall ⊢
      split <;> omega

/-- What lies between zero and a finite number is finite. -/
theorem isFinite_of_between {x y : Binary64} (hx : 0 < x) (hy : x < y)
    (hfinite : y.isFinite = true) : x.isFinite = true := by
  have hzero : (0 : Binary64).units = 0 := by decide +kernel
  have hpos : 0 < x.units := hzero ▸ hx.2.2
  cases x with
  | finite s m e h => rfl
  | nan => exact absurd hx (not_lt_nan 0)
  | infinite s =>
      have hbelow := units_lt_infinite hfinite
      have hx' := hy.2.2
      cases s with
      | true =>
          have hneg : (infinite true).units = -(infinite false).units := rfl
          have := units_infinite_pos
          omega
      | false => omega

end ContractSurvey.Binary64
