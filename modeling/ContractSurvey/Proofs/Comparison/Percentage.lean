import ContractSurvey.Proofs.Comparison.Similarity
import ContractSurvey.Proofs.Number.Monotone

/-!
# Proofs — Comparison — Percentage

What the rounding of a percentage can hide.  A percentage is a share that is rounded three times:
to a double, after the multiplication by 100, and to two places.  Each of these keeps the order
(`percentage_le_percentage`), so a percentage lies between that of nothing and that of all, 0 and
100 (`percentage_bounds`).

Two places tell shares apart up to ten thousand parts.  Up to there only all is rounded to 100
(`percentage_eq_hundred_iff`) and only nothing to 0 (`percentage_eq_zero_iff`): every other share
lies between that of one part and that of all parts but one.
-/

namespace ContractSurvey.Similarity

open Binary64 (Unsigned)

variable {part total part' total' : Nat}

theorem unsigned_hundred : (100 : Binary64).Unsigned :=
  ⟨by decide +kernel, by decide +kernel⟩

/-- A share times 100 is a finite double without a sign. -/
theorem unsigned_hundredfold (htotal : 0 < total) (h : part ≤ total) :
    (Binary64.ofRatio part total * 100).Unsigned := by
  have hshare := Binary64.unsigned_ofRatio htotal h
  have hall := Binary64.unsigned_ofRatio Nat.one_pos (Nat.le_refl 1)
  have hle : Binary64.ofRatio part total ≤ Binary64.ofRatio (1 : Nat) 1 :=
    Binary64.ofRatio_le_ofRatio htotal Nat.one_pos (by omega)
  have hsign : (Binary64.ofRatio part total * 100).isNegative = false := by
    rw [Binary64.mul_eq_nearest hshare.1 unsigned_hundred.1, Binary64.isNegative_nearest, hshare.2,
      unsigned_hundred.2]
    rfl
  have hfinite : (Binary64.ofRatio (1 : Nat) 1 * 100).isFinite = true := by decide +kernel
  exact ⟨Binary64.isFinite_of_le hsign
    (hshare.mul_le_mul_right hall unsigned_hundred hle) hfinite, hsign⟩

/-- The greater share is the greater percentage. -/
theorem percentage_le_percentage (htotal : 0 < total) (htotal' : 0 < total') (hle : part ≤ total)
    (hle' : part' ≤ total') (h : part * total' ≤ part' * total) :
    percentage part total ≤ percentage part' total' := by
  have hshares := Binary64.ofRatio_le_ofRatio htotal htotal' h
  refine (unsigned_hundredfold htotal hle).roundTo_le_roundTo 2
    (unsigned_hundredfold htotal' hle') ?_
  exact (Binary64.unsigned_ofRatio htotal hle).mul_le_mul_right
    (Binary64.unsigned_ofRatio htotal' hle') unsigned_hundred hshares

theorem percentage_congr (htotal : 0 < total) (htotal' : 0 < total')
    (h : part * total' = part' * total) : percentage part total = percentage part' total' := by
  rw [percentage, percentage, Binary64.ofRatio_congr htotal htotal' h]

/-- The percentages of all, of nothing, of all parts but one in ten thousand, and of that part. -/
theorem percentage_marks : percentage 1 1 = 100 ∧ percentage 0 1 = 0 ∧
    percentage 9999 10000 < 100 ∧ 0 < percentage 1 10000 := by
  decide +kernel

theorem percentage_self (htotal : 0 < total) : percentage total total = 100 := by
  obtain ⟨hone, -⟩ := percentage_marks
  rw [percentage_congr htotal Nat.one_pos (Nat.mul_comm total 1), hone]

theorem percentage_zero (htotal : 0 < total) : percentage 0 total = 0 := by
  obtain ⟨-, hone, -⟩ := percentage_marks
  have hnone : 0 * 1 = 0 * total := by omega
  rw [percentage_congr htotal Nat.one_pos hnone, hone]

theorem percentage_bounds (htotal : 0 < total) (hle : part ≤ total) :
    0 ≤ percentage part total ∧ percentage part total ≤ 100 := by
  rw [← percentage_zero htotal, ← percentage_self htotal]
  constructor
  · exact percentage_le_percentage htotal htotal (Nat.zero_le _) hle (by omega)
  · exact percentage_le_percentage htotal htotal hle (Nat.le_refl _) (Nat.mul_le_mul_right _ hle)

/-- Up to ten thousand parts, all parts but one are not rounded to all. -/
theorem percentage_eq_hundred_iff (htotal : 0 < total) (hle : part ≤ total)
    (hfew : total ≤ 10000) : percentage part total = 100 ↔ part = total := by
  refine ⟨fun h => ?_, fun h => by rw [h, percentage_self htotal]⟩
  refine Nat.le_antisymm hle (Nat.le_of_not_lt fun hlt => ?_)
  have hshare : part * 10000 ≤ 9999 * total := by omega
  have hmost := percentage_le_percentage htotal (by decide) hle (by decide) hshare
  obtain ⟨-, -, hbelow, -⟩ := percentage_marks
  exact Binary64.not_lt_of_le (h ▸ hmost) hbelow

/-- Up to ten thousand parts, one part is not rounded to nothing. -/
theorem percentage_eq_zero_iff (htotal : 0 < total) (hle : part ≤ total) (hfew : total ≤ 10000) :
    percentage part total = 0 ↔ part = 0 := by
  refine ⟨fun h => ?_, fun h => by rw [h, percentage_zero htotal]⟩
  refine Nat.eq_zero_of_not_pos fun hpos => ?_
  have hshare : 1 * total ≤ part * 10000 := by omega
  have hleast := percentage_le_percentage (by decide) htotal (by decide) hle hshare
  obtain ⟨-, -, -, habove⟩ := percentage_marks
  exact Binary64.not_lt_of_le (h ▸ hleast) habove

end ContractSurvey.Similarity
