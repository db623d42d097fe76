import ContractSurvey.Comparison.DisjointSet
import Mathlib.Data.Finset.Card

/-!
# Proofs — DisjointSet — Walk

The two walks of a look-up as relations that know no bound on the number of steps.  `Climbs` goes
to the parent until a root; `Repoints` goes the same way and points every element on it at the
root.  A derivation is a walk that ends, and at every step of it the element it reads is there.

A forest is *well-formed* when parents are elements and the rank grows from every element that is
no root to its parent.  Going up, fewer and fewer elements are of greater rank (`above`), so the
walks end within as many steps as there are elements:

* `climbs_root`: the climb from an element ends, at `root`.
* `repoints_compressed`: the second walk ends, with the parents of `compressed`.
* `Repoints.preserves`: the second walk keeps the forest well-formed and every climb's end.
-/

namespace ContractSurvey.DisjointSet

/-- Going to the parent from an element until a root ends at this root. -/
inductive Climbs (parent : List Nat) : Nat → Nat → Prop where
  | root {i : Nat} : parent[i]? = some i → Climbs parent i i
  | step {i p r : Nat} : parent[i]? = some p → p ≠ i → Climbs parent p r → Climbs parent i r

/-- Pointing the elements from `i` on at `root`, until one whose parent it is, turns the first row
of parents into the second. -/
inductive Repoints (root : Nat) : List Nat → Nat → List Nat → Prop where
  | done {parent : List Nat} {i : Nat} : parent[i]? = some root → Repoints root parent i parent
  | step {parent parent' : List Nat} {i p : Nat} : parent[i]? = some p → p ≠ root →
      Repoints root (parent.set i root) p parent' → Repoints root parent i parent'

/-! ### Where a climb ends -/

theorem parent_unique {parent : List Nat} {i p q : Nat} (hp : parent[i]? = some p)
    (hq : parent[i]? = some q) : p = q :=
  Option.some.inj (hp.symm.trans hq)

theorem Climbs.lt_length {parent : List Nat} {i r : Nat} (h : Climbs parent i r) :
    i < parent.length := by
  cases h with
  | root h => exact (List.getElem?_eq_some_iff.mp h).1
  | step h _ _ => exact (List.getElem?_eq_some_iff.mp h).1

theorem Climbs.isRoot {parent : List Nat} {i r : Nat} (h : Climbs parent i r) :
    parent[r]? = some r := by
  induction h with
  | root h => exact h
  | step _ _ _ ih => exact ih

theorem Climbs.unique {parent : List Nat} {i r s : Nat} (h : Climbs parent i r)
    (h' : Climbs parent i s) : r = s := by
  induction h with
  | root hi =>
      cases h' with
      | root _ => rfl
      | step hi' hne _ => exact absurd (parent_unique hi' hi) hne
  | step hi hne _ ih =>
      cases h' with
      | root hi' => exact absurd (parent_unique hi hi') hne
      | step hi' _ h' => exact ih (parent_unique hi hi' ▸ h')

/-- The climb from an element that is not the root goes on from its parent. -/
theorem Climbs.tail {parent : List Nat} {i p r : Nat} (h : Climbs parent i r)
    (hp : parent[i]? = some p) (hne : p ≠ r) : Climbs parent p r := by
  cases h with
  | root hi => exact absurd (parent_unique hp hi) hne
  | step hi _ h => exact parent_unique hi hp ▸ h

/-- Pointing an element at its own root leaves the end of every climb. -/
theorem Climbs.set {parent : List Nat} {i r j s : Nat} (h : Climbs parent i r)
    (hj : Climbs parent j s) : Climbs (parent.set i r) j s := by
  induction hj with
  | @root j hj =>
      refine .root ?_
      by_cases e : i = j
      · subst e
        obtain rfl := h.unique (.root hj)
        rw [List.getElem?_set_self h.lt_length]
      · rw [List.getElem?_set_ne e, hj]
  | @step j p s hp hne hs ih =>
      by_cases e : i = j
      · subst e
        obtain rfl := h.unique (.step hp hne hs)
        have hr : r ≠ i := fun e => hne (parent_unique hp (e ▸ h.isRoot))
        refine .step (List.getElem?_set_self h.lt_length) hr (.root ?_)
        rw [List.getElem?_set_ne hr.symm, h.isRoot]
      · exact .step (by rw [List.getElem?_set_ne e, hp]) hne ih

/-! ### Well-formed forests -/

/-- Parents are elements, and the rank grows from every element that is no root to its parent. -/
structure WellFormed (d : DisjointSet) : Prop where
  length_rank : d.rank.length = d.size
  parent_lt {i p : Nat} : d.parent[i]? = some p → p < d.size
  rank_lt {i p : Nat} : d.parent[i]? = some p → p ≠ i → d.rank.getD i 0 < d.rank.getD p 0

theorem wellFormed_ofSize (n : Nat) : (ofSize n).WellFormed where
  length_rank := by simp [ofSize, size]
  parent_lt h := by
    obtain ⟨hi, rfl⟩ := List.getElem?_eq_some_iff.mp h
    simpa [ofSize, size] using hi
  rank_lt h hne := by
    obtain ⟨hi, rfl⟩ := List.getElem?_eq_some_iff.mp h
    simp [ofSize] at hne

theorem WellFormed.exists_parent {d : DisjointSet} {i : Nat} (hi : i < d.size) :
    ∃ p, d.parent[i]? = some p :=
  ⟨_, List.getElem?_eq_getElem hi⟩

theorem WellFormed.rank_lt_of_climbs {d : DisjointSet} (hd : d.WellFormed) {i r : Nat}
    (h : Climbs d.parent i r) (hne : r ≠ i) : d.rank.getD i 0 < d.rank.getD r 0 := by
  induction h with
  | root _ => exact absurd rfl hne
  | @step i p r hp hpi h ih =>
      have hip := hd.rank_lt hp hpi
      by_cases e : r = p
      · rwa [e]
      · exact hip.trans (ih e)

/-- Pointing one element at another one keeps the forest well-formed, also with other ranks, if the
rank grows to its new parent and from every other element to the parent it has. -/
theorem WellFormed.point {d : DisjointSet} (hd : d.WellFormed) {i r : Nat} {rank : List Nat}
    (hi : i < d.size) (hr : r < d.size) (hlen : rank.length = d.size)
    (hir : r ≠ i → rank.getD i 0 < rank.getD r 0)
    (hrest : ∀ j p, i ≠ j → d.parent[j]? = some p → p ≠ j → rank.getD j 0 < rank.getD p 0) :
    WellFormed ⟨d.parent.set i r, rank⟩ where
  length_rank := by simpa [size] using hlen
  parent_lt {j p} hp := by
    by_cases e : i = j
    · subst e
      obtain rfl := parent_unique (List.getElem?_set_self hi) hp
      simpa [size] using hr
    · rw [List.getElem?_set_ne e] at hp
      simpa [size] using hd.parent_lt hp
  rank_lt {j p} hp hne := by
    by_cases e : i = j
    · subst e
      obtain rfl := parent_unique (List.getElem?_set_self hi) hp
      exact hir hne
    · rw [List.getElem?_set_ne e] at hp
      exact hrest j p e hp hne

/-- Pointing an element at its own root keeps the forest well-formed. -/
theorem WellFormed.set {d : DisjointSet} (hd : d.WellFormed) {i r : Nat}
    (h : Climbs d.parent i r) : WellFormed { d with parent := d.parent.set i r } :=
  hd.point h.lt_length (hd.parent_lt h.isRoot) hd.length_rank (hd.rank_lt_of_climbs h)
    fun _ _ _ hp hne => hd.rank_lt hp hne

/-! ### The number of steps -/

/-- The elements of greater rank. -/
def above (d : DisjointSet) (i : Nat) : Finset Nat :=
  (Finset.range d.size).filter fun j => d.rank.getD i 0 < d.rank.getD j 0

theorem card_above_lt_size {d : DisjointSet} {i : Nat} (hi : i < d.size) :
    (d.above i).card < d.size := by
  have h : d.above i ⊂ Finset.range d.size :=
    Finset.filter_ssubset.mpr ⟨i, Finset.mem_range.mpr hi, lt_irrefl _⟩
  simpa using Finset.card_lt_card h

theorem card_above_lt {d : DisjointSet} {i p : Nat} (hp : p < d.size)
    (h : d.rank.getD i 0 < d.rank.getD p 0) : (d.above p).card < (d.above i).card := by
  refine Finset.card_lt_card (Finset.ssubset_iff_of_subset ?_ |>.mpr ⟨p, ?_, ?_⟩)
  · intro j hj
    simp only [above, Finset.mem_filter] at hj ⊢
    exact ⟨hj.1, h.trans hj.2⟩
  · simpa [above] using ⟨hp, h⟩
  · simp [above]

theorem climbs_climb {d : DisjointSet} (hd : d.WellFormed) {steps i : Nat} (hi : i < d.size)
    (hs : (d.above i).card < steps) : Climbs d.parent i (climb d.parent steps i) := by
  induction steps generalizing i with
  | zero => exact absurd hs (Nat.not_lt_zero _)
  | succ n ih =>
      obtain ⟨p, hp⟩ := WellFormed.exists_parent hi
      simp only [climb, List.getD_eq_getElem?_getD, hp, Option.getD_some]
      by_cases e : p = i
      · subst e
        rw [if_pos rfl]
        exact .root hp
      · rw [if_neg e]
        have hlt := card_above_lt (hd.parent_lt hp) (hd.rank_lt hp e)
        exact .step hp e (ih (hd.parent_lt hp) (by omega))

/-- **The climb from an element ends**, at its root. -/
theorem climbs_root {d : DisjointSet} (hd : d.WellFormed) {i : Nat} (hi : i < d.size) :
    Climbs d.parent i (d.root i) :=
  climbs_climb hd hi (card_above_lt_size hi)

theorem Climbs.root_eq {d : DisjointSet} (hd : d.WellFormed) {i r : Nat}
    (h : Climbs d.parent i r) : d.root i = r :=
  (climbs_root hd h.lt_length).unique h

theorem repoints_compress {d : DisjointSet} (hd : d.WellFormed) {steps i r : Nat}
    (h : Climbs d.parent i r) (hs : (d.above i).card < steps) :
    Repoints r d.parent i (compress r steps i d.parent) := by
  induction steps generalizing d i with
  | zero => exact absurd hs (Nat.not_lt_zero _)
  | succ n ih =>
      obtain ⟨p, hp⟩ := WellFormed.exists_parent h.lt_length
      simp only [compress, List.getD_eq_getElem?_getD, hp, Option.getD_some]
      by_cases e : p = r
      · subst e
        rw [if_pos rfl]
        exact .done hp
      · rw [if_neg e]
        have hpi : p ≠ i := by
          rintro rfl
          exact e ((Climbs.root hp).unique h)
        have hlt := card_above_lt (hd.parent_lt hp) (hd.rank_lt hp hpi)
        -- the ranks stay, and with them the elements above `p`
        have hsame : above { d with parent := d.parent.set i r } p = d.above p := by
          simp [above, size]
        exact .step hp e (ih (hd.set h) (h.set (h.tail hp e)) (by rw [hsame]; omega))

/-- **The second walk of a look-up ends**, with the parents of the compressed forest. -/
theorem repoints_compressed {d : DisjointSet} (hd : d.WellFormed) {i : Nat} (hi : i < d.size) :
    Repoints (d.root i) d.parent i (d.compressed i).parent :=
  repoints_compress hd (climbs_root hd hi) (card_above_lt_size hi)

/-- **Compression keeps** the forest well-formed and the end of every climb. -/
theorem Repoints.preserves {r i : Nat} {parent parent' rank : List Nat}
    (h : Repoints r parent i parent') (hd : WellFormed ⟨parent, rank⟩)
    (hc : Climbs parent i r) :
    WellFormed ⟨parent', rank⟩ ∧ ∀ {j s : Nat}, Climbs parent j s → Climbs parent' j s := by
  induction h with
  | done _ => exact ⟨hd, id⟩
  | step hp hne _ ih =>
      obtain ⟨hd', hk⟩ := ih (hd.set hc) (hc.set (hc.tail hp hne))
      exact ⟨hd', fun hj => hk (hc.set hj)⟩

end ContractSurvey.DisjointSet
