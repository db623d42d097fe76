import ContractSurvey.Number.Quotient
import Mathlib.Algebra.Group.Nat.Defs

/-!
# Proofs — Number — Nearest

The double nearest to a quotient.  It depends on the value of the quotient alone (`nearest_congr`),
the sign passes through it (`neg_nearest`), and a double is the one nearest to itself
(`nearest_units`).  Below half the range there is always a finite one (`isFinite_nearest`), so that
a quotient of whole numbers is refused only beyond that (`exists_quotient`), and a finite double
stays finite when it is rounded to decimal places (`isFinite_roundTo`).
-/

namespace ContractSurvey

/-! ### Rounded quotients -/

theorem roundDiv_mul_mul_right (n d : Nat) {t : Nat} (ht : 0 < t) :
    roundDiv (n * t) (d * t) = roundDiv n d := by
  have hdiv : n * t / (d * t) = n / d := Nat.mul_div_mul_right n d ht
  have hmod : n * t % (d * t) = n % d * t := Nat.mul_mod_mul_right t n d
  have hlow : 2 * (n % d * t) < d * t ↔ 2 * (n % d) < d := by
    rw [← Nat.mul_assoc]
    exact Nat.mul_lt_mul_right ht
  have hhigh : d * t < 2 * (n % d * t) ↔ d < 2 * (n % d) := by
    rw [← Nat.mul_assoc]
    exact Nat.mul_lt_mul_right ht
  simp only [roundDiv, hdiv, hmod, hlow, hhigh]

theorem roundDiv_le (n d : Nat) : roundDiv n d ≤ n / d + 1 := by
  rcases roundDiv_eq_or n d with h | h <;> omega

theorem le_roundDiv (n d : Nat) : n / d ≤ roundDiv n d := by
  rcases roundDiv_eq_or n d with h | h <;> omega

namespace Binary64

/-! ### The value alone -/

theorem nearest_mul_mul_right (s : Bool) (n d : Nat) {t : Nat} (ht : 0 < t) :
    nearest s (n * t) (d * t) = nearest s n d := by
  have hm (e : Nat) : roundDiv (n * t) (d * t * Nat.pow 2 e) = roundDiv n (d * Nat.pow 2 e) := by
    rw [Nat.mul_right_comm, roundDiv_mul_mul_right _ _ ht]
  simp only [nearest, Nat.mul_div_mul_right _ _ ht, hm]

/-- Two quotients of one value have the same nearest double. -/
theorem nearest_congr (s : Bool) {n d n' d' : Nat} (hd : 0 < d) (hd' : 0 < d')
    (h : n * d' = n' * d) : nearest s n d = nearest s n' d' := by
  calc nearest s n d = nearest s (n * d') (d * d') := (nearest_mul_mul_right s n d hd').symm
    _ = nearest s (n' * d) (d' * d) := by rw [h, Nat.mul_comm d d']
    _ = nearest s n' d' := nearest_mul_mul_right s n' d' hd

theorem neg_ofParts (s : Bool) (m e : Nat) : -(ofParts s m e) = ofParts (!s) m e := by
  show Binary64.neg _ = _
  unfold ofParts
  split <;> rfl

theorem neg_nearest (s : Bool) (n d : Nat) : -(nearest s n d) = nearest (!s) n d := by
  simp only [nearest]
  split <;> exact neg_ofParts _ _ _

/-! ### Mantissa and exponent -/

theorem log2_units {m e : Nat} (h : Canonical m e) : (m * Nat.pow 2 e).log2 - 52 = e := by
  obtain ⟨hlt, -, hle⟩ := h
  change m < 2 ^ 53 at hlt
  show (m * 2 ^ e).log2 - 52 = e
  by_cases hm : m = 0
  · subst hm
    simpa [eq_comm] using hle
  have hpos : m * 2 ^ e ≠ 0 := Nat.mul_ne_zero hm (Nat.ne_of_gt (Nat.two_pow_pos e))
  have hupper : (m * 2 ^ e).log2 < 53 + e := by
    rw [Nat.log2_lt hpos, Nat.pow_add]
    exact Nat.mul_lt_mul_of_pos_right hlt (Nat.two_pow_pos e)
  rcases hle with rfl | hle
  · omega
  · have hlower : 52 + e ≤ (m * 2 ^ e).log2 := by
      rw [Nat.le_log2 hpos, Nat.pow_add]
      exact Nat.mul_le_mul_right _ hle
    omega

theorem units_lt {m e k : Nat} (h : Canonical m e) (hk : 2098 ≤ k) : m * 2 ^ e < 2 ^ k := by
  have he : 53 + e ≤ k := by have := h.2.1; omega
  calc m * 2 ^ e < 2 ^ 53 * 2 ^ e := Nat.mul_lt_mul_of_pos_right h.1 (Nat.two_pow_pos e)
    _ = 2 ^ (53 + e) := (Nat.pow_add 2 53 e).symm
    _ ≤ 2 ^ k := Nat.pow_le_pow_right Nat.two_pos he

/-- A double is the one nearest to itself. -/
theorem nearest_units (s : Bool) {m e : Nat} (h : Canonical m e) :
    nearest s (m * Nat.pow 2 e) 1 = .finite s m e h := by
  have hround : roundDiv (m * Nat.pow 2 e) (1 * Nat.pow 2 e) = m := by
    rw [Nat.one_mul]
    exact roundDiv_mul m (Nat.two_pow_pos e)
  simp only [nearest, Nat.div_one, log2_units h, hround]
  rw [if_neg (Nat.ne_of_lt h.1), ofParts, dif_pos h]

/-- The rounded mantissa fills its bits, up to a carry. -/
theorem mantissa_bounds (n d : Nat) :
    roundDiv n (d * Nat.pow 2 ((n / d).log2 - 52)) ≤ Nat.pow 2 53 ∧
      ((n / d).log2 - 52 = 0 ∨ Nat.pow 2 52 ≤ roundDiv n (d * Nat.pow 2 ((n / d).log2 - 52))) := by
  have hle := roundDiv_le n (d * 2 ^ ((n / d).log2 - 52))
  have hge := le_roundDiv n (d * 2 ^ ((n / d).log2 - 52))
  rw [← Nat.div_div_eq_div_mul] at hle hge
  generalize n / d = q at *
  have hlt : q / 2 ^ (q.log2 - 52) < 2 ^ 53 := by
    rw [Nat.div_lt_iff_lt_mul (Nat.two_pow_pos _), ← Nat.pow_add]
    exact Nat.lt_of_lt_of_le Nat.lt_log2_self (Nat.pow_le_pow_right Nat.two_pos (by omega))
  refine ⟨Nat.le_trans hle hlt, ?_⟩
  by_cases hq : q.log2 ≤ 52
  · exact .inl (Nat.sub_eq_zero_of_le hq)
  · have hne : q ≠ 0 := by
      rintro rfl
      simp at hq
    refine .inr (Nat.le_trans ?_ hge)
    rw [Nat.le_div_iff_mul_le (Nat.two_pow_pos _)]
    show 2 ^ 52 * 2 ^ (q.log2 - 52) ≤ q
    rw [← Nat.pow_add, Nat.add_sub_cancel' (by omega)]
    exact Nat.log2_self_le hne

/-! ### Finite results -/

theorem two_pow_mul_one (k : Nat) : 2 ^ k * one = 2 ^ (k + 1074) := by
  have hone : one = 2 ^ 1074 := by
    unfold one
    generalize 1074 = e
    rfl
  rw [hone, Nat.pow_add]

theorem one_pos : 0 < one := by
  unfold one
  generalize 1074 = e
  exact Nat.two_pow_pos e

theorem two_pow_le_one {e : Nat} (he : e ≤ 1074) : 2 ^ e ≤ one := by
  unfold one
  generalize 1074 = k at *
  exact Nat.pow_le_pow_right Nat.two_pos he

theorem isFinite_ofParts (s : Bool) {m e : Nat} (h : Canonical m e) :
    (ofParts s m e).isFinite = true := by
  rw [ofParts, dif_pos h]
  rfl

/-- Below half the range the nearest double is finite. -/
theorem isFinite_nearest (s : Bool) {n d k : Nat} (hk : k ≤ 2097) (h : n / d < 2 ^ k) :
    (nearest s n d).isFinite = true := by
  obtain ⟨hle, hge⟩ := mantissa_bounds n d
  have hlog : (n / d).log2 ≤ 2096 := by
    by_cases hq : n / d = 0
    · simp [hq]
    · have := (Nat.log2_lt hq).mpr h
      omega
  simp only [nearest]
  split
  · exact isFinite_ofParts s ⟨by decide, by omega, .inr (Nat.le_refl _)⟩
  · next hne => exact isFinite_ofParts s ⟨Nat.lt_of_le_of_ne hle hne, by omega, hge⟩

theorem isFinite_nearest_mul_one (s : Bool) {n d k : Nat} (hk : k ≤ 1023) (h : n < 2 ^ k * d) :
    (nearest s (n * one) d).isFinite = true := by
  have hd : 0 < d := Nat.pos_of_ne_zero fun hd => by simp [hd] at h
  refine isFinite_nearest (k := k + 1074) s (by omega) ((Nat.div_lt_iff_lt_mul hd).mpr ?_)
  calc n * one < 2 ^ k * d * one := Nat.mul_lt_mul_of_pos_right h one_pos
    _ = 2 ^ (k + 1074) * d := by rw [Nat.mul_right_comm, two_pow_mul_one]

/-- Below half the range there is a quotient. -/
theorem exists_quotient {n : Int} {d k : Nat} (hk : k ≤ 1023) (h : n.natAbs < 2 ^ k * d) :
    ∃ x, quotient n d = .ok x :=
  ⟨_, quotient_eq_ok_iff.mpr ⟨rfl, isFinite_nearest_mul_one _ hk h⟩⟩

/-- A double of this size is whole, and has no decimal places to lose. -/
theorem roundTo_of_le (places : Nat) (s : Bool) {m e : Nat} (h : Canonical m e) (he : 1074 ≤ e) :
    (finite s m e h).roundTo places = .finite s m e h := by
  have hwhole : m * 2 ^ e * 10 ^ places = m * 2 ^ (e - 1074) * 10 ^ places * one := by
    rw [Nat.mul_right_comm _ _ one, Nat.mul_assoc m _ one, two_pow_mul_one, Nat.sub_add_cancel he]
  have hround : roundDiv (m * 2 ^ e * 10 ^ places) one * one = m * 2 ^ e * 10 ^ places := by
    rw [hwhole, roundDiv_mul _ one_pos]
  calc nearest s (roundDiv (m * 2 ^ e * 10 ^ places) one * one) (10 ^ places)
      = nearest s (m * 2 ^ e * 10 ^ places) (10 ^ places) := by rw [hround]
    _ = nearest s (m * 2 ^ e) 1 :=
      nearest_congr s (Nat.pow_pos (by decide)) Nat.one_pos (Nat.mul_one _)
    _ = .finite s m e h := nearest_units s h

theorem isFinite_roundTo (places : Nat) {x : Binary64} (hx : x.isFinite = true) :
    (x.roundTo places).isFinite = true := by
  cases x with
  | nan => cases hx
  | infinite s => cases hx
  | finite s m e h =>
      by_cases he : 1074 ≤ e
      · rw [roundTo_of_le places s h he]
        rfl
      · have hm : m < 2 ^ 53 := h.1
        have hpow : 2 ^ e ≤ one := two_pow_le_one (by omega)
        have hsmall : m * 2 ^ e * 10 ^ places ≤ 2 ^ 53 * 10 ^ places * one := by
          calc m * 2 ^ e * 10 ^ places ≤ 2 ^ 53 * one * 10 ^ places :=
                Nat.mul_le_mul_right _ (Nat.mul_le_mul (Nat.le_of_lt hm) hpow)
            _ = 2 ^ 53 * 10 ^ places * one := Nat.mul_right_comm _ _ _
        have hround : roundDiv (m * 2 ^ e * 10 ^ places) one ≤ 2 ^ 53 * 10 ^ places + 1 :=
          Nat.le_trans (roundDiv_le _ _)
            (Nat.succ_le_succ (Nat.div_le_of_le_mul (Nat.mul_comm one _ ▸ hsmall)))
        have hten : 0 < 10 ^ places := Nat.pow_pos (by decide)
        have hlt : roundDiv (m * 2 ^ e * 10 ^ places) one < 2 ^ 54 * 10 ^ places := by omega
        exact isFinite_nearest_mul_one s (by decide) hlt

end Binary64

end ContractSurvey
