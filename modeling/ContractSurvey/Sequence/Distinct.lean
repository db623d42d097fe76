/-!
# Sequence — Distinct

The different elements of a list, each where it first appears.
-/

namespace ContractSurvey.Sequence

variable {α : Type} [DecidableEq α]

/-- The different elements, in the order of their first appearance. -/
def distinct : List α → List α
  | [] => []
  | a :: as => a :: (distinct as).filter (· ≠ a)

@[simp] theorem mem_distinct {a : α} {as : List α} : a ∈ distinct as ↔ a ∈ as := by
  induction as with
  | nil => simp [distinct]
  | cons b bs ih =>
    by_cases h : a = b <;> simp [distinct, ih, h]

theorem nodup_distinct (as : List α) : (distinct as).Nodup := by
  induction as with
  | nil => simp [distinct]
  | cons a as ih =>
    simp only [distinct, List.nodup_cons, List.mem_filter]
    exact ⟨by simp, ih.filter _⟩

end ContractSurvey.Sequence
