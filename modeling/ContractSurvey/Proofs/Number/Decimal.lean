import ContractSurvey.Number.Decimal
import ContractSurvey.Proofs.Number.Nearest

/-!
# Proofs — Number — Decimal

Decimals and the doubles they read as.  Zeros at the end of a coefficient may be moved into the
exponent (`ofDecimal_mul_pow`), the sign passes through (`neg_ofDecimal`), and the digits chosen for
a double read back to it (`ofDecimalNumber_shortest`), whether they were found on a grid or are all
its digits.
-/

namespace ContractSurvey.Binary64

/-! ### Zeros at the end -/

theorem toDigits_mul_pow {n : Nat} (hn : n ≠ 0) (k : Nat) :
    Nat.toDigits 10 (n * 10 ^ k) = Nat.toDigits 10 n ++ List.replicate k '0' := by
  induction k with
  | zero => simp
  | succ k ih =>
      have hpos : 0 < n * 10 ^ k :=
        Nat.mul_pos (Nat.pos_of_ne_zero hn) (Nat.pow_pos (by decide))
      have hlast := Nat.toDigits_append_toDigits (b := 10) (by decide) hpos (d := 0) (by decide)
      have hmul : n * 10 ^ (k + 1) = 10 * (n * 10 ^ k) + 0 := by
        rw [Nat.pow_succ, Nat.add_zero, ← Nat.mul_assoc, Nat.mul_comm]
      rw [hmul, ← hlast, ih, List.replicate_succ', List.append_assoc]
      rfl

theorem ofDecimal_zero (s : Bool) (e : Int) : ofDecimal s 0 e = ofParts s 0 0 := by
  rw [ofDecimal, if_pos rfl]

/-- A decimal that is neither zero nor far outside the range is rounded as it is. -/
theorem ofDecimal_eq_nearest (s : Bool) {c : Nat} {e : Int} (hc : c ≠ 0)
    (hlow : -400 ≤ (Nat.toDigits 10 c).length + e) (hhigh : (Nat.toDigits 10 c).length + e ≤ 400) :
    ofDecimal s c e = nearest s (c * 10 ^ e.toNat * one) (10 ^ (-e).toNat) := by
  rw [ofDecimal, if_neg hc]
  dsimp only
  rw [if_neg (by omega), if_neg (by omega)]
  by_cases he : 0 ≤ e
  · rw [if_pos he, show (-e).toNat = 0 by omega]
    rfl
  · rw [if_neg he, show e.toNat = 0 by omega, Nat.pow_zero, Nat.mul_one]
    rfl

/-- Zeros at the end of the coefficient count as much as in the exponent. -/
theorem ofDecimal_mul_pow (s : Bool) (c : Nat) (e : Int) (k : Nat) :
    ofDecimal s (c * 10 ^ k) (e - k) = ofDecimal s c e := by
  by_cases hc : c = 0
  · rw [hc, Nat.zero_mul, ofDecimal_zero, ofDecimal_zero]
  have hck : c * 10 ^ k ≠ 0 := Nat.mul_ne_zero hc (Nat.ne_of_gt (Nat.pow_pos (by decide)))
  have hlength : (Nat.toDigits 10 (c * 10 ^ k)).length = (Nat.toDigits 10 c).length + k := by
    rw [toDigits_mul_pow hc, List.length_append, List.length_replicate]
  by_cases hrange : -400 ≤ (Nat.toDigits 10 c).length + e ∧ (Nat.toDigits 10 c).length + e ≤ 400
  · rw [ofDecimal_eq_nearest s hc hrange.1 hrange.2,
      ofDecimal_eq_nearest s hck (by omega) (by omega)]
    refine nearest_congr s (Nat.pow_pos (by decide)) (Nat.pow_pos (by decide)) ?_
    have hpower : k + (e - k).toNat + (-e).toNat = e.toNat + (-(e - k)).toNat := by omega
    calc c * 10 ^ k * 10 ^ (e - k).toNat * one * 10 ^ (-e).toNat
        = c * 10 ^ (k + (e - k).toNat + (-e).toNat) * one := by
          rw [Nat.pow_add, Nat.pow_add]; ac_rfl
      _ = c * 10 ^ e.toNat * one * 10 ^ (-(e - k)).toNat := by
          rw [hpower, Nat.pow_add]; ac_rfl
  · -- far outside the range only the place of the first digit counts
    have htop : ((Nat.toDigits 10 (c * 10 ^ k)).length : Int) + (e - k) =
        (Nat.toDigits 10 c).length + e := by omega
    simp only [ofDecimal, if_neg hc, if_neg hck, htop]
    by_cases hhigh : 400 < ((Nat.toDigits 10 c).length : Int) + e
    · simp only [if_pos hhigh]
    · have hlow : ((Nat.toDigits 10 c).length : Int) + e < -400 := by omega
      simp only [if_neg hhigh, if_pos hlow]

theorem neg_ofDecimal (s : Bool) (c : Nat) (e : Int) : -(ofDecimal s c e) = ofDecimal (!s) c e := by
  simp only [ofDecimal]
  split
  · exact neg_ofParts _ _ _
  split
  · rfl
  split
  · exact neg_ofParts _ _ _
  split <;> exact neg_nearest _ _ _

/-! ### The digits chosen -/

theorem one_mul_allDigits : one * allDigits = 10 ^ 1074 := by
  unfold one allDigits
  generalize 1074 = k
  exact (Nat.mul_pow 2 5 k).symm

theorem allDigits_bounds : 10 ^ 673 ≤ allDigits ∧ 2 ^ 2098 * allDigits ≤ 10 ^ 1474 := by
  unfold allDigits
  decide +kernel

/-- All digits of a double stand for its exact value. -/
theorem ofDecimal_allDigits {m e : Nat} (h : Canonical m e) (hm : m ≠ 0) :
    ofDecimal false (m * Nat.pow 2 e * allDigits) (-1074) = .finite false m e h := by
  have hunits : 0 < m * Nat.pow 2 e := Nat.mul_pos (Nat.pos_of_ne_zero hm) (Nat.two_pow_pos e)
  obtain ⟨hleast, hmost⟩ := allDigits_bounds
  have hlow : 10 ^ 673 ≤ m * Nat.pow 2 e * allDigits :=
    Nat.le_trans hleast (Nat.le_mul_of_pos_left _ hunits)
  have hhigh : m * Nat.pow 2 e * allDigits < 10 ^ 1474 :=
    Nat.lt_of_lt_of_le (Nat.mul_lt_mul_of_pos_right (units_lt h (Nat.le_refl 2098))
      (Nat.lt_of_lt_of_le (Nat.pow_pos (by decide)) hleast)) hmost
  have hlength {k : Nat} (hk : 0 < k) :
      (Nat.toDigits 10 (m * Nat.pow 2 e * allDigits)).length ≤ k ↔
        m * Nat.pow 2 e * allDigits < 10 ^ k :=
    Nat.length_toDigits_le_iff (by decide) hk
  have hshort := (hlength (k := 1474) (by decide)).mpr hhigh
  have hlong := mt (hlength (k := 673) (by decide)).mp (Nat.not_lt.mpr hlow)
  have hne : m * Nat.pow 2 e * allDigits ≠ 0 :=
    Nat.ne_of_gt (Nat.lt_of_lt_of_le (Nat.pow_pos (by decide)) hlow)
  rw [ofDecimal_eq_nearest false hne (by omega) (by omega), ← nearest_units false h]
  refine nearest_congr false (Nat.pow_pos (by decide)) Nat.one_pos ?_
  have hzero : (-1074 : Int).toNat = 0 := rfl
  have hplaces : (-(-1074) : Int).toNat = 1074 := rfl
  rw [hzero, hplaces, ← one_mul_allDigits, Nat.pow_zero]
  ac_rfl

/-- The digits chosen for a positive double read back to it. -/
theorem ofDecimalNumber_shortest {m e : Nat} (h : Canonical m e) (hm : m ≠ 0) :
    ofDecimalNumber (shortest (.finite false m e h) (m * Nat.pow 2 e)) = .finite false m e h := by
  unfold shortest
  cases hgrid : (List.range' 1 17).findSome? (onGrid? (.finite false m e h) (m * Nat.pow 2 e)) with
  | none => exact ofDecimal_allDigits h hm
  | some d =>
      obtain ⟨k, -, hk⟩ := List.exists_of_findSome?_eq_some hgrid
      exact onGrid?_reads hk

end ContractSurvey.Binary64
