import ContractSurvey.Sequence.Ledger
import Mathlib.Data.List.Nodup

/-!
# Proofs — Sequence — Ledger

The keys of a ledger and the values under them.  Writing adds at most the pair written (`mem_put`)
and its key (`mem_keys_put`), and of several pairs with one key the last one counts
(`get?_ofPairs`).  Where no key repeats, `foldl_put` has the whole ledger with its order: the old
keys keep their places and the new ones follow.
-/

namespace ContractSurvey.Ledger

variable {κ α : Type} [DecidableEq κ] {k : κ} {v : α} {l : Ledger κ α}

/-! ### Keys -/

theorem mem_keys_put {j : κ} : j ∈ (put k v l).keys ↔ j = k ∨ j ∈ l.keys := by
  rw [put, keys_alter]
  split
  · next h => exact ⟨.inr, fun hj => hj.elim (fun e => e ▸ h) id⟩
  · rw [List.mem_append, List.mem_singleton, or_comm]

/-- A pair of a ledger was there before the writing, or is the one written. -/
theorem mem_put {p : κ × α} (h : p ∈ put k v l) : p = (k, v) ∨ p ∈ l := by
  induction l with
  | nil => exact .inl (List.mem_singleton.mp h)
  | cons q l ih =>
      rw [put, alter] at h
      split at h
      · next hq =>
          rcases List.mem_cons.mp h with rfl | h
          · exact .inl (by rw [hq])
          · exact .inr (List.mem_cons_of_mem _ h)
      · rcases List.mem_cons.mp h with rfl | h
        · exact .inr List.mem_cons_self
        · exact (ih h).imp_right (List.mem_cons_of_mem _)

/-! ### Values -/

/-- Of the pairs written from left to right the last one of a key counts, and without one the value
from before. -/
theorem get?_foldl_put (ps : List (κ × α)) (l : Ledger κ α) :
    get? k (ps.foldl (fun l p => put p.1 p.2 l) l) =
      ((ps.reverse.find? (·.1 = k)).map Prod.snd).or (get? k l) := by
  induction ps generalizing l with
  | nil => rfl
  | cons p ps ih =>
      rw [List.foldl_cons, ih, get?_put, List.reverse_cons, List.find?_append, Option.map_or,
        Option.or_assoc]
      by_cases h : p.1 = k
      · simp [h]
      · simp [h, Ne.symm h]

theorem get?_ofPairs (ps : List (κ × α)) :
    get? k (ofPairs ps) = (ps.reverse.find? (·.1 = k)).map Prod.snd := by
  rw [ofPairs, get?_foldl_put]
  exact Option.or_none

/-! ### Places -/

theorem get?_eq_none {l : Ledger κ α} (h : k ∉ l.keys) : get? k l = none := by
  induction l with
  | nil => rfl
  | cons p l ih =>
      simp only [keys, List.map_cons, List.mem_cons, not_or] at h
      rw [get?, if_neg (Ne.symm h.1)]
      exact ih h.2

theorem mem_of_get?_eq_some {l : Ledger κ α} (h : get? k l = some v) : (k, v) ∈ l := by
  induction l with
  | nil => cases h
  | cons p l ih =>
      rw [get?] at h
      split at h
      · next hp =>
          obtain ⟨rfl, rfl⟩ : p.1 = k ∧ p.2 = v := ⟨hp, Option.some.inj h⟩
          exact List.mem_cons_self
      · exact List.mem_cons_of_mem _ (ih h)

theorem exists_get?_of_mem_keys {l : Ledger κ α} (h : k ∈ l.keys) : ∃ v, get? k l = some v := by
  induction l with
  | nil => cases h
  | cons p l ih =>
      rw [get?]
      split
      · exact ⟨p.2, rfl⟩
      · next hp => exact ih ((List.mem_cons.mp h).resolve_left (Ne.symm hp))

/-- Where no key repeats, a value stands under its key exactly if the pair is in the ledger. -/
theorem get?_eq_some_iff (hl : l.keys.Nodup) : get? k l = some v ↔ (k, v) ∈ l := by
  refine ⟨mem_of_get?_eq_some, fun h => ?_⟩
  obtain ⟨w, hw⟩ := exists_get?_of_mem_keys (List.mem_map_of_mem h)
  have hpair : (k, w) = (k, v) := List.inj_on_of_nodup_map hl (mem_of_get?_eq_some hw) h rfl
  rw [hw, (Prod.mk.inj hpair).2]

/-- Writing changes the value under a key in place, or adds the key at the end. -/
theorem put_eq (h : l.keys.Nodup) :
    put k v l = l.map (fun p => (p.1, if p.1 = k then v else p.2)) ++
      if k ∈ l.keys then [] else [(k, v)] := by
  induction l with
  | nil => rfl
  | cons p l ih =>
      simp only [keys, List.map_cons, List.nodup_cons] at h
      have ih := ih h.2
      rw [put] at ih
      rw [put, alter, ih]
      by_cases hp : p.1 = k
      · have hk : k ∉ keys l := hp ▸ h.1
        have hrest : l.map (fun q => (q.1, if q.1 = k then v else q.2)) = l := by
          refine (List.map_congr_left fun q hq => ?_).trans (List.map_id l)
          have hne : q.1 ≠ k := fun e => hk (e ▸ List.mem_map_of_mem hq)
          rw [if_neg hne]
          rfl
        simp [hp, hrest, keys]
      · have hkeys : k ∈ keys (p :: l) ↔ k ∈ keys l := by simp [keys, Ne.symm hp]
        simp [hp, hkeys]

theorem put_of_not_mem (h : k ∉ l.keys) : put k v l = l ++ [(k, v)] := by
  induction l with
  | nil => rfl
  | cons p l ih =>
      simp only [keys, List.map_cons, List.mem_cons, not_or] at h
      rw [put, alter, if_neg (Ne.symm h.1), List.cons_append]
      exact congrArg (p :: ·) (ih h.2)

/-- To write a pair again that is there changes nothing. -/
theorem put_of_mem (hl : l.keys.Nodup) (h : (k, v) ∈ l) : put k v l = l := by
  have hk : k ∈ l.keys := List.mem_map_of_mem h
  have hsame : ∀ p ∈ l, (p.1, if p.1 = k then v else p.2) = p := by
    intro p hp
    by_cases hpk : p.1 = k
    · obtain rfl : p = (k, v) := List.inj_on_of_nodup_map hl hp h hpk
      simp
    · rw [if_neg hpk]
  rw [put_eq hl, if_pos hk, List.append_nil, List.map_congr_left hsame, List.map_id']

/-- Writing pairs of different keys over a ledger: every old key keeps its place, with the new value
if there is one, and the new keys follow in their order. -/
theorem foldl_put {ps l : Ledger κ α} (hl : l.keys.Nodup) (hps : ps.keys.Nodup) :
    ps.foldl (fun l p => put p.1 p.2 l) l =
      l.map (fun p => (p.1, (get? p.1 ps).getD p.2)) ++ ps.filter (·.1 ∉ l.keys) := by
  induction ps generalizing l with
  | nil => simp [get?]
  | cons p ps ih =>
      obtain ⟨k, v⟩ := p
      simp only [keys, List.map_cons, List.nodup_cons] at hps
      have hput : (put k v l).keys.Nodup := by
        rw [put, keys_alter]
        split
        · exact hl
        · next hk => exact List.nodup_append.mpr ⟨hl, by simp, by
            rintro _ ha _ hb rfl
            exact hk (List.mem_singleton.mp hb ▸ ha)⟩
      have hvalue (q : κ × α) : (get? q.1 ps).getD (if q.1 = k then v else q.2) =
          (get? q.1 ((k, v) :: ps)).getD q.2 := by
        by_cases hq : q.1 = k
        · rw [get?, if_pos hq.symm, if_pos hq, hq, get?_eq_none hps.1]
          rfl
        · rw [get?, if_neg (Ne.symm hq), if_neg hq]
      have hnew : ps.filter (·.1 ∉ (put k v l).keys) = ps.filter (·.1 ∉ l.keys) := by
        refine List.filter_congr fun q hq => ?_
        have hne : q.1 ≠ k := fun e => hps.1 (e ▸ List.mem_map_of_mem hq)
        simp [mem_keys_put, hne]
      rw [List.foldl_cons, ih hput hps.2, hnew, put_eq hl, List.map_append, List.map_map]
      simp only [Function.comp_def, hvalue]
      by_cases hk : k ∈ l.keys
      · simp [hk]
      · simp [hk, get?_eq_none hps.1]

end ContractSurvey.Ledger
