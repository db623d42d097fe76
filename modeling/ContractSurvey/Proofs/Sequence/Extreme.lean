import Mathlib.Data.List.Induction

/-!
# Proofs — Sequence — Extreme

The two ends of a stable sort.  An element of the list goes in front of the sorted rest only if
nothing of the rest sorts before it, and behind what sorts before it otherwise
(`List.mergeSort_cons`), so the sorted list begins with the first of the elements that sort first
(`isFirstLeast_head`) and ends with the last of those that sort last (`isLastGreatest_getLast`).
-/

namespace ContractSurvey.Sequence

variable {α : Type}

/-- The element sorts before all others of the list, or it is level with them and comes first. -/
def IsFirstLeast (le : α → α → Prop) (l : List α) (x : α) : Prop :=
  ∃ front rear, l = front ++ x :: rear ∧ (∀ y ∈ front, ¬ le y x) ∧ ∀ y ∈ rear, le x y

/-- The element sorts behind all others of the list, or it is level with them and comes last. -/
def IsLastGreatest (le : α → α → Prop) (l : List α) (x : α) : Prop :=
  ∃ front rear, l = front ++ x :: rear ∧ (∀ y ∈ front, le y x) ∧ ∀ y ∈ rear, ¬ le x y

variable {le : α → α → Bool} {l : List α} {x : α}

theorem isFirstLeast_head (trans : ∀ a b c, le a b → le b c → le a c)
    (total : ∀ a b, le a b || le b a) (h : (l.mergeSort le).head? = some x) :
    IsFirstLeast (le · ·) l x := by
  induction l with
  | nil => simp at h
  | cons a l ih =>
      obtain ⟨before, behind, hcons, hl, hbefore⟩ := List.mergeSort_cons trans total a l
      rw [hcons] at h
      cases before with
      | nil =>
          obtain rfl : a = x := by simpa using h
          have hsorted := List.pairwise_mergeSort trans total (a :: l)
          rw [hcons, List.nil_append, List.pairwise_cons] at hsorted
          refine ⟨[], l, rfl, by simp, fun y hy => hsorted.1 y ?_⟩
          rwa [← List.nil_append behind, ← hl, List.mem_mergeSort]
      | cons b before =>
          obtain rfl : b = x := by simpa using h
          obtain ⟨front, rear, rfl, hfront, hrear⟩ := ih (by rw [hl]; rfl)
          refine ⟨a :: front, rear, rfl, List.forall_mem_cons.mpr ⟨?_, hfront⟩, hrear⟩
          simpa using hbefore b List.mem_cons_self

theorem isLastGreatest_getLast (trans : ∀ a b c, le a b → le b c → le a c)
    (total : ∀ a b, le a b || le b a) (h : (l.mergeSort le).getLast? = some x) :
    IsLastGreatest (le · ·) l x := by
  induction l with
  | nil => simp at h
  | cons a l ih =>
      obtain ⟨before, behind, hcons, hl, hbefore⟩ := List.mergeSort_cons trans total a l
      rw [hcons] at h
      cases behind using List.reverseRecOn with
      | nil =>
          obtain rfl : a = x := by simpa using h
          refine ⟨[], l, rfl, by simp, fun y hy => ?_⟩
          have hmem : y ∈ before := by rwa [← List.append_nil before, ← hl, List.mem_mergeSort]
          simpa using hbefore y hmem
      | append_singleton behind b _ =>
          rw [← List.cons_append, ← List.append_assoc, List.getLast?_concat] at h
          obtain rfl : b = x := Option.some.inj h
          obtain ⟨front, rear, rfl, hfront, hrear⟩ := ih (by
            rw [hl, ← List.append_assoc, List.getLast?_concat])
          refine ⟨a :: front, rear, rfl, List.forall_mem_cons.mpr ⟨?_, hfront⟩, hrear⟩
          have hsorted := List.pairwise_mergeSort trans total (a :: (front ++ b :: rear))
          rw [hcons, List.pairwise_append, List.pairwise_cons] at hsorted
          exact hsorted.2.1.1 b (by simp)

end ContractSurvey.Sequence
