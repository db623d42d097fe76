import ContractSurvey.Number.Bound
import ContractSurvey.Proofs.Number.Monotone

/-!
# Proofs — Number — Bound

The doubles on the two sides of a whole number stand for the number itself.  Where doubles lie more
than one apart, a double of that size is a whole number of spacings (`dvd_units`), so that none lies
strictly between a number and its neighbours (`ceilOf_mul_le`, `le_floorOf_mul`), and the neighbours
are doubles, which no rounding moves (`rounded_mul_two_pow`).

The main statements are `above_le_iff` and `le_below_iff`: a finite double is held against either
neighbour as its units are held against those of the number.
-/

namespace ContractSurvey.Binary64

/-! ### The other sign -/

section

variable {x y : Binary64}

theorem isNaN_neg (x : Binary64) : (-x).isNaN = x.isNaN := by cases x <;> rfl

theorem isFinite_neg (x : Binary64) : (-x).isFinite = x.isFinite := by cases x <;> rfl

theorem units_neg (x : Binary64) : (-x).units = -x.units := by
  cases x with
  | nan => rfl
  | infinite s =>
      have hneg : -(infinite s) = infinite (!s) := rfl
      rw [hneg, units, units, isNegative, isNegative, magnitude, magnitude]
      generalize Nat.pow 2 2098 = k
      cases s <;> simp
  | finite s m e h =>
      have hneg : -(finite s m e h) = finite (!s) m e h := rfl
      rw [hneg, units, units, isNegative, isNegative, magnitude, magnitude]
      cases s <;> simp

theorem neg_le_iff : -x ≤ y ↔ -y ≤ x := by
  show (_ ∧ _ ∧ _) ↔ (_ ∧ _ ∧ _)
  rw [isNaN_neg, isNaN_neg, units_neg, units_neg]
  constructor <;> exact fun ⟨hx, hy, h⟩ => ⟨hy, hx, by omega⟩

theorem le_neg_iff : x ≤ -y ↔ y ≤ -x := by
  show (_ ∧ _ ∧ _) ↔ (_ ∧ _ ∧ _)
  rw [isNaN_neg, isNaN_neg, units_neg, units_neg]
  constructor <;> exact fun ⟨hx, hy, h⟩ => ⟨hy, hx, by omega⟩

theorem isNaN_of_isFinite (h : x.isFinite = true) : x.isNaN = false := by
  cases x with
  | nan => cases h
  | infinite s => cases h
  | finite s m e hc => rfl

end

/-! ### Numbers that are not rounded -/

theorem rounded_of_dvd {n : Nat} (h : 2 ^ (n.log2 - 52) ∣ n) : rounded n 1 = n := by
  have hround : roundDiv n (2 ^ (n.log2 - 52)) = n / 2 ^ (n.log2 - 52) := by
    rw [← roundDiv_mul (n / 2 ^ (n.log2 - 52)) (Nat.two_pow_pos (n.log2 - 52)),
      Nat.div_mul_cancel h]
  show roundDiv n (1 * 2 ^ ((n / 1).log2 - 52)) * 2 ^ ((n / 1).log2 - 52) = n
  rw [Nat.div_one, Nat.one_mul, hround, Nat.div_mul_cancel h]

/-- A mantissa of 53 bits is kept, and so is the next one. -/
theorem rounded_mul_two_pow {q : Nat} (hq : q ≤ 2 ^ 53) (e : Nat) :
    rounded (q * 2 ^ e) 1 = q * 2 ^ e := by
  refine rounded_of_dvd ?_
  rcases Nat.lt_or_eq_of_le hq with hlt | rfl
  · refine Nat.dvd_trans (Nat.pow_dvd_pow 2 ?_) (Nat.dvd_mul_left _ _)
    by_cases hzero : q * 2 ^ e = 0
    · simp [hzero]
    · have hlog : (q * 2 ^ e).log2 < 53 + e := by
        rw [Nat.log2_lt hzero, Nat.pow_add]
        exact Nat.mul_lt_mul_of_pos_right hlt (Nat.two_pow_pos e)
      omega
  · rw [← Nat.pow_add, Nat.log2_two_pow]
    exact Nat.pow_dvd_pow 2 (by omega)

/-- A whole number of few enough spacings, as a double. -/
theorem units_ofInt {q : Nat} (hq : q ≤ 2 ^ 53) (k : Nat) :
    (ofInt (q * 2 ^ k : Nat)).units = min (q * 2 ^ k * one) (infinite false).magnitude := by
  have hwhole : q * 2 ^ k * one = q * 2 ^ (k + 1074) := by
    rw [Nat.mul_assoc, two_pow_mul_one]
  have hofInt : ofInt (q * 2 ^ k : Nat) = nearest false (q * 2 ^ k * one) 1 := ofRatio_natCast _ 1
  rw [hofInt, units, isNegative_nearest, magnitude_nearest, hwhole, rounded_mul_two_pow hq,
    magnitude]
  rfl

section

variable {y : Binary64}

theorem isNaN_ofInt (n : Int) : (ofInt n).isNaN = false := isNaN_ofRatio n 1

theorem units_lt_magnitude (hy : y.isFinite = true) : y.units < (infinite false).magnitude :=
  units_lt_infinite hy

theorem ofInt_le_iff {q : Nat} (hq : q ≤ 2 ^ 53) (k : Nat) (hy : y.isFinite = true) :
    ofInt (q * 2 ^ k : Nat) ≤ y ↔ ((q * 2 ^ k * one : Nat) : Int) ≤ y.units := by
  have hlt := units_lt_magnitude hy
  rw [le_iff_units (isNaN_ofInt _) (isNaN_of_isFinite hy), units_ofInt hq]
  omega

theorem le_ofInt_iff {q : Nat} (hq : q ≤ 2 ^ 53) (k : Nat) (hy : y.isFinite = true) :
    y ≤ ofInt (q * 2 ^ k : Nat) ↔ y.units ≤ ((q * 2 ^ k * one : Nat) : Int) := by
  have hlt := units_lt_magnitude hy
  rw [le_iff_units (isNaN_of_isFinite hy) (isNaN_ofInt _), units_ofInt hq]
  omega

end

/-! ### Spacings -/

section

variable {n u k : Nat}

theorem spacing_pos (n : Nat) : 0 < spacing n := Nat.two_pow_pos _

theorem spacing_eq_one (h : n.log2 ≤ 52) : spacing n = 1 := by
  rw [spacing, Nat.sub_eq_zero_of_le h]

theorem lt_two_pow_mul_spacing (n : Nat) : n < 2 ^ 53 * spacing n := by
  calc n < 2 ^ (n.log2 + 1) := Nat.lt_log2_self
    _ ≤ 2 ^ (53 + (n.log2 - 52)) := Nat.pow_le_pow_right Nat.two_pos (by omega)
    _ = 2 ^ 53 * spacing n := Nat.pow_add 2 53 _

theorem two_pow_mul_spacing_le (h : 52 < n.log2) : 2 ^ 52 * spacing n ≤ n := by
  have hne : n ≠ 0 := by
    rintro rfl
    simp at h
  calc 2 ^ 52 * spacing n = 2 ^ (52 + (n.log2 - 52)) := (Nat.pow_add 2 52 _).symm
    _ = 2 ^ n.log2 := by rw [Nat.add_sub_cancel' (Nat.le_of_lt h)]
    _ ≤ n := Nat.log2_self_le hne

/-- The spacings up to a number fill at most 53 bits, also when the last one is begun. -/
theorem div_spacing_lt (n : Nat) : n / spacing n < 2 ^ 53 := by
  rw [Nat.div_lt_iff_lt_mul (spacing_pos n)]
  exact lt_two_pow_mul_spacing n

theorem ceilDiv_spacing_le (n : Nat) : (n + spacing n - 1) / spacing n ≤ 2 ^ 53 := by
  have hpos := spacing_pos n
  have hlt := lt_two_pow_mul_spacing n
  refine Nat.le_of_lt_succ ((Nat.div_lt_iff_lt_mul hpos).mpr ?_)
  rw [Nat.succ_mul]
  omega

/-- A double that fills its bits above a power of two is a multiple of the power 52 below. -/
theorem dvd_units {m e : Nat} (hm : m < 2 ^ 53) (h : 2 ^ (52 + k) ≤ m * 2 ^ e) :
    2 ^ k ∣ m * 2 ^ e := by
  refine Nat.dvd_trans (Nat.pow_dvd_pow 2 ?_) (Nat.dvd_mul_left _ _)
  refine Nat.le_of_not_lt fun hlt => Nat.not_lt.mpr h ?_
  calc m * 2 ^ e < 2 ^ 53 * 2 ^ e := Nat.mul_lt_mul_of_pos_right hm (Nat.two_pow_pos e)
    _ = 2 ^ (53 + e) := (Nat.pow_add 2 53 e).symm
    _ ≤ 2 ^ (52 + k) := Nat.pow_le_pow_right Nat.two_pos (by omega)

/-- Units that belong to some double. -/
def IsMagnitude (u : Nat) : Prop := ∃ m e, m < 2 ^ 53 ∧ u = m * 2 ^ e

/-- From the 52 bits of a number on, a double is a whole number of its spacings. -/
theorem IsMagnitude.exists_eq (hu : IsMagnitude u) (h : 2 ^ 52 * spacing n * one ≤ u) :
    ∃ t, u = t * spacing n * one := by
  obtain ⟨m, e, hm, rfl⟩ := hu
  have hspacing : spacing n * one = 2 ^ (n.log2 - 52 + 1074) := two_pow_mul_one _
  rw [Nat.mul_assoc, hspacing, ← Nat.pow_add] at h
  obtain ⟨t, ht⟩ := dvd_units hm h
  exact ⟨t, by rw [ht, Nat.mul_assoc, hspacing, Nat.mul_comm]⟩

/-- No double lies between a number and the spacing that it begins. -/
theorem ceilOf_mul_le (hu : IsMagnitude u) (h : n * one ≤ u) : ceilOf n * one ≤ u := by
  have hpos := spacing_pos n
  by_cases hlog : n.log2 ≤ 52
  · have hceil : ceilOf n = n := by simp [ceilOf, spacing_eq_one hlog]
    rwa [hceil]
  · obtain ⟨t, rfl⟩ := hu.exists_eq (n := n)
      (Nat.le_trans (Nat.mul_le_mul_right _ (two_pow_mul_spacing_le (by omega))) h)
    have hle : n ≤ t * spacing n := Nat.le_of_mul_le_mul_right h one_pos
    have hspacings : (n + spacing n - 1) / spacing n ≤ t := by
      refine Nat.le_of_lt_succ ((Nat.div_lt_iff_lt_mul hpos).mpr ?_)
      rw [Nat.succ_mul]
      omega
    exact Nat.mul_le_mul_right _ (Nat.mul_le_mul_right _ hspacings)

/-- No double lies between a number and the last spacing that it completes. -/
theorem le_floorOf_mul (hu : IsMagnitude u) (h : u ≤ n * one) : u ≤ floorOf n * one := by
  by_cases hlog : n.log2 ≤ 52
  · have hfloor : floorOf n = n := by simp [floorOf, spacing_eq_one hlog]
    rwa [hfloor]
  · have hfull := two_pow_mul_spacing_le (n := n) (by omega)
    by_cases hge : 2 ^ 52 * spacing n * one ≤ u
    · obtain ⟨t, rfl⟩ := hu.exists_eq hge
      have hle : t * spacing n ≤ n := Nat.le_of_mul_le_mul_right h one_pos
      exact Nat.mul_le_mul_right _ (Nat.mul_le_mul_right _
        ((Nat.le_div_iff_mul_le (spacing_pos n)).mpr hle))
    · -- the bits of the number are full, those of the double are not
      have hbits : 2 ^ 52 ≤ n / spacing n := (Nat.le_div_iff_mul_le (spacing_pos n)).mpr hfull
      exact Nat.le_trans (Nat.le_of_lt (Nat.not_le.mp hge))
        (Nat.mul_le_mul_right _ (Nat.mul_le_mul_right _ hbits))

end

/-! ### The two sides of a whole number -/

section

variable {y : Binary64}

theorem natAbs_units (x : Binary64) : x.units.natAbs = x.magnitude := by
  rw [units]
  split <;> simp

theorem isMagnitude (hy : y.isFinite = true) : IsMagnitude y.units.natAbs := by
  rw [natAbs_units]
  cases y with
  | nan => cases hy
  | infinite s => cases hy
  | finite s m e h => exact ⟨m, e, h.1, rfl⟩

theorem ofInt_ceilOf_le_iff (n : Nat) (hy : y.isFinite = true) :
    ofInt (ceilOf n) ≤ y ↔ ((n * one : Nat) : Int) ≤ y.units := by
  have hceil : ofInt (ceilOf n) ≤ y ↔ ((ceilOf n * one : Nat) : Int) ≤ y.units :=
    ofInt_le_iff (ceilDiv_spacing_le n) _ hy
  have hle : n * one ≤ ceilOf n * one := Nat.mul_le_mul_right _ (le_ceilOf n)
  rw [hceil]
  refine ⟨fun h => by omega, fun h => ?_⟩
  have hbetween := ceilOf_mul_le (n := n) (isMagnitude hy) (by omega)
  omega

theorem units_le_largest (hy : y.isFinite = true) : y.units ≤ largest.units := by
  cases y with
  | nan => cases hy
  | infinite s => cases hy
  | finite s m e h =>
      have hle (k : Nat) (hk : e ≤ k) : m * 2 ^ e ≤ (2 ^ 53 - 1) * 2 ^ k :=
        Nat.mul_le_mul (Nat.le_sub_one_of_lt h.1) (Nat.pow_le_pow_right Nat.two_pos hk)
      have hall := hle 2045 h.2.1
      have hcanonical : Canonical (Nat.pow 2 53 - 1) 2045 :=
        ⟨by decide, Nat.le_refl _, .inr (by decide)⟩
      rw [largest, ofParts, dif_pos hcanonical, units, units, magnitude, magnitude]
      simp only [isNegative, Nat.pow_eq, Bool.false_eq_true, if_false]
      generalize 2045 = k at hall ⊢
      cases s with
      | false => exact Int.ofNat_le.mpr hall
      | true =>
          simp only [if_true]
          omega

theorem eq_infinite {x : Binary64} (hnumber : x.isNaN = false) (hfinite : x.isFinite ≠ true)
    (hsign : x.isNegative = false) : x = infinite false := by
  cases x with
  | nan => cases hnumber
  | infinite s => exact congrArg infinite hsign
  | finite s m e h => exact absurd rfl hfinite

/-- Where the last spacing is beyond the doubles, every finite one is within. -/
theorem le_under_iff_le_ofInt (n : Nat) (hy : y.isFinite = true) :
    y ≤ under n ↔ y ≤ ofInt (floorOf n) := by
  unfold under
  dsimp only
  split
  · rfl
  · next hfinite =>
      have hsign : (ofInt (floorOf n)).isNegative = false := by
        rw [ofInt, ofRatio_natCast, isNegative_nearest]
      have hy' := isNaN_of_isFinite hy
      have hlargest : largest.isNaN = false := isNaN_ofParts _ _ _
      rw [eq_infinite (isNaN_ofInt _) hfinite hsign, le_iff_units hy' hlargest,
        le_iff_units hy' rfl]
      exact iff_of_true (units_le_largest hy) (Int.le_of_lt (units_lt_infinite hy))

theorem le_under_iff (n : Nat) (hy : y.isFinite = true) :
    y ≤ under n ↔ y.units ≤ ((n * one : Nat) : Int) := by
  have hfloor : y ≤ ofInt (floorOf n) ↔ y.units ≤ ((floorOf n * one : Nat) : Int) :=
    le_ofInt_iff (Nat.le_of_lt (div_spacing_lt n)) _ hy
  have hle : floorOf n * one ≤ n * one := Nat.mul_le_mul_right _ (floorOf_le n)
  rw [le_under_iff_le_ofInt n hy, hfloor]
  refine ⟨fun h => by omega, fun h => ?_⟩
  by_cases hneg : y.units ≤ 0
  · omega
  · have hbetween := le_floorOf_mul (n := n) (isMagnitude hy) (by omega)
    omega

theorem natAbs_mul_one {n : Int} (hn : n < 0) : ((n.natAbs * one : Nat) : Int) = -(n * one) := by
  rw [Int.natCast_mul, Int.ofNat_natAbs_of_nonpos (Int.le_of_lt hn), Int.neg_mul]

/-- **The least double from a whole number on** is at most the finite doubles that the number is at
most. -/
theorem above_le_iff {n : Int} (hy : y.isFinite = true) : above n ≤ y ↔ n * one ≤ y.units := by
  rw [above]
  split
  · next hn =>
      rw [ofInt_ceilOf_le_iff _ hy, Int.natCast_mul, Int.toNat_of_nonneg hn]
  · next hn =>
      rw [neg_le_iff, le_under_iff _ (by rwa [isFinite_neg]), units_neg,
        natAbs_mul_one (Int.not_le.mp hn)]
      omega

/-- **The greatest double up to a whole number** is at least the finite doubles that the number is
at least. -/
theorem le_below_iff {n : Int} (hy : y.isFinite = true) : y ≤ below n ↔ y.units ≤ n * one := by
  rw [below]
  split
  · next hn => rw [le_under_iff _ hy, Int.natCast_mul, Int.toNat_of_nonneg hn]
  · next hn =>
      rw [le_neg_iff, ofInt_ceilOf_le_iff _ (by rwa [isFinite_neg]), units_neg,
        natAbs_mul_one (Int.not_le.mp hn)]
      omega

end

end ContractSurvey.Binary64
