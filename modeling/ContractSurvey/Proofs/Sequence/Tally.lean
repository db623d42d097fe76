import ContractSurvey.Proofs.Sequence.Order
import Mathlib.Algebra.Ring.Nat

/-!
# Proofs — Sequence — Tally

Counting by name.  A tally lists the different elements where they first appear, each with the
number of times it occurs (`tally_eq`); so the counts are those of the list (`getD_tally`), they add
up to its length (`sum_tally`), and the names stand in the order in which they are met
(`pairwise_distinct_map`).
-/

namespace ContractSurvey

variable {α κ : Type} [DecidableEq κ]

/-- A tally counts every different element, in the order of first appearance. -/
theorem tally_eq (ks : List κ) :
    tally ks = (Sequence.distinct ks).map fun k => (k, ks.count k) := by
  induction ks using List.reverseRecOn with
  | nil => rfl
  | append_singleton ks k ih =>
      rw [tally] at ih
      rw [tally, List.foldl_append, List.foldl_cons, List.foldl_nil, ih, Sequence.distinct_concat]
      by_cases hk : k ∈ ks
      · rw [if_pos hk, Sequence.alter_map_of_mem (Sequence.nodup_distinct _)
          (Sequence.mem_distinct.mpr hk)]
        refine List.map_congr_left fun j _ => ?_
        by_cases e : j = k
        · simp [e, List.count_append]
        · simp [e, Ne.symm e, List.count_append]
      · rw [if_neg hk, Sequence.alter_map_of_not_mem (mt Sequence.mem_distinct.mp hk),
          List.map_append]
        congr 1
        · refine List.map_congr_left fun j hj => ?_
          have e : k ≠ j := by
            rintro rfl
            exact hk (Sequence.mem_distinct.mp hj)
          simp [e, List.count_append]
        · simp [List.count_append, List.count_eq_zero.mpr hk]

theorem keys_tally (ks : List κ) : (tally ks).keys = Sequence.distinct ks := by
  rw [tally_eq, Ledger.keys, List.map_map]
  exact List.map_id _

/-- The count of an element, none being listed that does not occur. -/
theorem getD_tally (ks : List κ) (k : κ) : ((tally ks).get? k).getD 0 = ks.count k := by
  have hkeys := keys_tally ks
  by_cases hk : k ∈ ks
  · have hpair : (k, ks.count k) ∈ tally ks := by
      rw [tally_eq]
      exact List.mem_map.mpr ⟨k, Sequence.mem_distinct.mpr hk, rfl⟩
    have hnodup : (tally ks).keys.Nodup := hkeys ▸ Sequence.nodup_distinct ks
    rw [(Ledger.get?_eq_some_iff hnodup).mpr hpair, Option.getD_some]
  · have hnone : k ∉ (tally ks).keys := by rwa [hkeys, Sequence.mem_distinct]
    rw [Ledger.get?_eq_none hnone, List.count_eq_zero.mpr hk, Option.getD_none]

theorem sum_alter (k : κ) (l : Ledger κ Nat) :
    ((l.alter k fun n => n.getD 0 + 1).map Prod.snd).sum = (l.map Prod.snd).sum + 1 := by
  induction l with
  | nil => rfl
  | cons p l ih =>
      rw [Ledger.alter]
      split
      · simp only [List.map_cons, List.sum_cons, Option.getD_some]
        omega
      · simp only [List.map_cons, List.sum_cons, ih]
        omega

/-- The counts add up to the number of elements. -/
theorem sum_tally (ks : List κ) : ((tally ks).map Prod.snd).sum = ks.length := by
  induction ks using List.reverseRecOn with
  | nil => rfl
  | append_singleton ks k ih =>
      rw [tally] at ih
      rw [tally, List.foldl_append, List.foldl_cons, List.foldl_nil, sum_alter, ih,
        List.length_append, List.length_singleton]

/-- Where a list is ordered, the first element under one name comes before all those under a name
that is listed later. -/
theorem Sequence.pairwise_distinct_map {r : α → α → Prop} {as : List α} (h : as.Pairwise r)
    (f : α → κ) : (distinct (as.map f)).Pairwise fun j k =>
      ∃ a ∈ as, f a = j ∧ ∀ b ∈ as, f b = k → r a b := by
  induction h with
  | nil => exact .nil
  | @cons a as hfirst _ ih =>
      rw [List.map_cons, distinct]
      refine List.pairwise_cons.mpr ⟨fun k hk => ?_, ?_⟩
      · have hne : k ≠ f a := by simpa using (List.mem_filter.mp hk).2
        refine ⟨a, List.mem_cons_self, rfl, fun b hb hbk => ?_⟩
        rcases List.mem_cons.mp hb with rfl | hb
        · exact absurd hbk hne.symm
        · exact hfirst b hb
      · refine (ih.filter (· ≠ f a)).imp_of_mem ?_
        rintro j k - hk ⟨b, hb, hbj, hbefore⟩
        have hne : k ≠ f a := by simpa using (List.mem_filter.mp hk).2
        refine ⟨b, List.mem_cons_of_mem _ hb, hbj, fun d hd hdk => ?_⟩
        rcases List.mem_cons.mp hd with rfl | hd
        · exact absurd hdk hne.symm
        · exact hbefore d hd hdk

end ContractSurvey
