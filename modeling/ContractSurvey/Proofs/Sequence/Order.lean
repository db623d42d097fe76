import ContractSurvey.Proofs.Sequence.Ledger
import ContractSurvey.Sequence.Distinct
import Mathlib.Data.List.Induction

/-!
# Proofs — Sequence — Order

What a sort and a grouping keep of the order of a list.

* `pairwise_mergeSort_ties`: of two elements that sort alike, the earlier one comes first.
* `foldl_alter_append`: entering the elements of a list under keys groups them, the keys in the
  order of their first appearance.
* `groups_eq`: the same groups, each told by its first element; `groups_congr`: only which elements
  agree on their keys counts.
* `foldl_put_eq_entries`: writing under the keys of a list what depends on the key alone lists every
  key with a value where it first appears.
-/

namespace ContractSurvey.Sequence

/-! ### Sorting -/

/-- A sort keeps the order `lt` of a list wherever the sorting does not decide. -/
theorem pairwise_mergeSort_ties {α : Type} {le : α → α → Bool} {lt : α → α → Prop}
    (trans : ∀ a b c, le a b → le b c → le a c) (total : ∀ a b, le a b || le b a) {l : List α}
    (h : l.Pairwise lt) : (l.mergeSort le).Pairwise fun a b => le a b ∧ (le b a → lt a b) := by
  have hsorted := List.pairwise_mergeSort (List.zipIdxLE_trans trans) (List.zipIdxLE_total total)
    l.zipIdx
  -- the places of a list are pairwise different, also after the sort
  have hplaces : (l.zipIdx.mergeSort (List.zipIdxLE le)).Pairwise fun p q => p.2 ≠ q.2 := by
    refine ((List.mergeSort_perm _ _).pairwise_iff fun h => Ne.symm h).mpr ?_
    rw [← List.pairwise_map, List.zipIdx_map_snd]
    exact List.nodup_range'
  rw [← List.mergeSort_zipIdx, List.pairwise_map]
  refine (hsorted.and hplaces).imp_of_mem fun {p q} hp hq ⟨hle, hne⟩ => ?_
  rw [List.mem_mergeSort, List.mem_zipIdx_iff_getElem?] at hp hq
  obtain ⟨hi, hp⟩ := List.getElem?_eq_some_iff.mp hp
  obtain ⟨hj, hq⟩ := List.getElem?_eq_some_iff.mp hq
  simp only [List.zipIdxLE] at hle
  refine ⟨by grind, fun hback => ?_⟩
  have hlt : p.2 < q.2 := by grind
  rw [← hp, ← hq]
  exact List.pairwise_iff_getElem.mp h _ _ hi hj hlt

/-! ### Grouping -/

variable {α κ : Type} [DecidableEq κ]

theorem distinct_concat (ks : List κ) (k : κ) :
    distinct (ks ++ [k]) = if k ∈ ks then distinct ks else distinct ks ++ [k] := by
  induction ks with
  | nil => simp [distinct]
  | cons j ks ih =>
      simp only [List.cons_append, distinct, ih]
      by_cases e : k = j
      · subst e
        by_cases hk : k ∈ ks <;> simp [hk]
      · by_cases hk : k ∈ ks <;> simp [hk, e]

theorem alter_map_of_mem {β : Type} {k : κ} {f : Option β → β} {g : κ → β} {ks : List κ}
    (hn : ks.Nodup) (hk : k ∈ ks) :
    Ledger.alter k f (ks.map fun j => (j, g j)) =
      ks.map fun j => (j, if j = k then f (some (g j)) else g j) := by
  induction ks with
  | nil => simp at hk
  | cons j ks ih =>
      rw [List.nodup_cons] at hn
      by_cases e : j = k
      · subst e
        simp only [List.map_cons, Ledger.alter, if_true, List.cons.injEq, true_and]
        refine List.map_congr_left fun i hi => ?_
        rw [if_neg (by rintro rfl; exact hn.1 hi)]
      · have hk : k ∈ ks := (List.mem_cons.mp hk).resolve_left (Ne.symm e)
        simp only [List.map_cons, Ledger.alter, if_neg e, ih hn.2 hk]

theorem alter_map_of_not_mem {β : Type} {k : κ} {f : Option β → β} {g : κ → β} {ks : List κ}
    (hk : k ∉ ks) :
    Ledger.alter k f (ks.map fun j => (j, g j)) = ks.map (fun j => (j, g j)) ++ [(k, f none)] := by
  induction ks with
  | nil => rfl
  | cons j ks ih =>
      rw [List.mem_cons, not_or] at hk
      simp only [List.map_cons, Ledger.alter, if_neg (Ne.symm hk.1), ih hk.2, List.cons_append]

/-- Entering what is kept of the elements of a list under their keys groups the list by key. -/
theorem foldl_alter_append {β : Type} (key : α → κ) (f : α → β) (xs : List α) :
    xs.foldl (fun l x => Ledger.alter (key x) (fun members => members.getD [] ++ [f x]) l) [] =
      (distinct (xs.map key)).map fun k => (k, (xs.filter (key · = k)).map f) := by
  induction xs using List.reverseRecOn with
  | nil => rfl
  | append_singleton xs x ih =>
      rw [List.foldl_append, List.foldl_cons, List.foldl_nil, ih, List.map_append,
        List.map_singleton, distinct_concat]
      by_cases hx : key x ∈ xs.map key
      · rw [if_pos hx, alter_map_of_mem (nodup_distinct _) (mem_distinct.mpr hx)]
        refine List.map_congr_left fun k _ => ?_
        by_cases e : k = key x
        · subst e
          simp [List.filter_append]
        · simp [List.filter_append, e, Ne.symm e]
      · rw [if_neg hx, alter_map_of_not_mem (mt mem_distinct.mp hx), List.map_append]
        have hnone : xs.filter (key · = key x) = [] := by
          simpa [List.filter_eq_nil_iff] using hx
        congr 1
        · refine List.map_congr_left fun k hk => ?_
          have e : key x ≠ k := by
            rintro rfl
            exact hx (mem_distinct.mp hk)
          simp [List.filter_append, e]
        · simp [List.filter_append, hnone]

open Classical in
/-- The distinct keys of a list are those of the elements that come first under their key. -/
theorem distinct_map_eq (key : α → κ) {xs : List α} (hn : xs.Nodup) :
    distinct (xs.map key) =
      (xs.filter fun x => (xs.filter (key · = key x)).head? = some x).map key := by
  induction xs with
  | nil => rfl
  | cons a xs ih =>
      rw [List.nodup_cons] at hn
      rw [List.map_cons, distinct, ih hn.2, List.filter_cons_of_pos (by simp), List.map_cons,
        List.filter_map, List.filter_filter]
      congr 2
      refine List.filter_congr fun x hx => ?_
      have hax : a ≠ x := by
        rintro rfl
        exact hn.1 hx
      by_cases e : key a = key x
      · simp [e, hax]
      · simp [e, Ne.symm e]

open Classical in
/-- The groups of a list by key, each one told by its first element. -/
theorem groups_eq (key : α → κ) {xs : List α} (hn : xs.Nodup) :
    (distinct (xs.map key)).map (fun k => xs.filter (key · = k)) =
      (xs.filter fun x => (xs.filter (key · = key x)).head? = some x).map
        fun x => xs.filter (key · = key x) := by
  rw [distinct_map_eq key hn, List.map_map]
  rfl

/-- Two keys that agree on the same elements group a list in the same way. -/
theorem groups_congr {key key' : α → κ} {xs : List α} (hn : xs.Nodup)
    (h : ∀ x ∈ xs, ∀ y ∈ xs, key x = key y ↔ key' x = key' y) :
    (distinct (xs.map key)).map (fun k => xs.filter (key · = k)) =
      (distinct (xs.map key')).map fun k => xs.filter (key' · = k) := by
  have hgroup : ∀ x ∈ xs, xs.filter (key · = key x) = xs.filter (key' · = key' x) :=
    fun x hx => List.filter_congr fun y hy => decide_eq_decide.mpr (h y hy x hx)
  rw [groups_eq key hn, groups_eq key' hn]
  rw [List.map_congr_left fun x hx => hgroup x (List.mem_of_mem_filter hx)]
  congr 1
  exact List.filter_congr fun x hx => by rw [hgroup x hx]

/-! ### Entries -/

/-- The keys of a list that have a value, each where it first appears, with their values. -/
def entries {β : Type} (value : κ → Option β) (ks : List κ) : Ledger κ β :=
  (distinct ks).filterMap fun k => (value k).map fun v => (k, v)

section

variable {β : Type} {value : κ → Option β} {ks : List κ} {k : κ}

theorem mem_entries {v : β} : (k, v) ∈ entries value ks ↔ k ∈ ks ∧ value k = some v := by
  simp only [entries, List.mem_filterMap, mem_distinct, Option.map_eq_some_iff, Prod.mk.injEq]
  constructor
  · rintro ⟨_, hk, _, hv, rfl, rfl⟩
    exact ⟨hk, hv⟩
  · rintro ⟨hk, hv⟩
    exact ⟨k, hk, v, hv, rfl, rfl⟩

theorem mem_keys_entries : k ∈ (entries value ks).keys ↔ k ∈ ks ∧ (value k).isSome := by
  rw [Ledger.keys, List.mem_map, Option.isSome_iff_exists]
  constructor
  · rintro ⟨⟨_, v⟩, hmem, rfl⟩
    obtain ⟨hk, hv⟩ := mem_entries.mp hmem
    exact ⟨hk, v, hv⟩
  · rintro ⟨hk, v, hv⟩
    exact ⟨(k, v), mem_entries.mpr ⟨hk, hv⟩, rfl⟩

theorem nodup_keys_entries (value : κ → Option β) (ks : List κ) :
    (entries value ks).keys.Nodup := by
  have hkeys : (fun k => ((value k).map fun v => (k, v)).map Prod.fst) =
      Option.guard fun k => (value k).isSome := by
    funext k
    cases h : value k <;> simp [Option.guard, h]
  rw [Ledger.keys, entries, List.map_filterMap, hkeys, List.filterMap_eq_filter]
  exact (nodup_distinct ks).filter _

/-- A key of the list has its value among the entries. -/
theorem get?_entries (hk : k ∈ ks) : (entries value ks).get? k = value k := by
  refine Option.ext fun v => ?_
  rw [Ledger.get?_eq_some_iff (nodup_keys_entries value ks), mem_entries]
  exact and_iff_right hk

theorem entries_concat (value : κ → Option β) (ks : List κ) (k : κ) :
    entries value (ks ++ [k]) =
      if k ∈ ks then entries value ks
      else entries value ks ++ ((value k).map fun v => (k, v)).toList := by
  rw [entries, distinct_concat]
  split
  · rfl
  · rw [List.filterMap_append, entries]
    cases h : value k <;> simp [h]

/-- Writing under the keys of a list what depends on the key alone. -/
theorem foldl_put_eq_entries (value : κ → Option β) (ks : List κ) :
    ks.foldl (fun l k => (value k).elim l fun v => Ledger.put k v l) [] = entries value ks := by
  induction ks using List.reverseRecOn with
  | nil => rfl
  | append_singleton ks k ih =>
      rw [List.foldl_append, List.foldl_cons, List.foldl_nil, ih, entries_concat]
      cases hv : value k with
      | none => simp
      | some v =>
          by_cases hk : k ∈ ks
          · rw [if_pos hk]
            exact Ledger.put_of_mem (nodup_keys_entries value ks) (mem_entries.mpr ⟨hk, hv⟩)
          · rw [if_neg hk]
            exact Ledger.put_of_not_mem fun h => hk (mem_keys_entries.mp h).1

end

end ContractSurvey.Sequence
