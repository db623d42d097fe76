import ContractSurvey.Proofs.DisjointSet.Walk

/-!
# Proofs — DisjointSet — Union

What a look-up and a union do to the roots of a well-formed forest, for elements named by their
places.

* `root_compressed`: a look-up changes no root.
* `root_link`: linking two roots makes one of them the root of both sets.
* `union_natCast`: a union is two look-ups and, for different roots, a link.
* `root_union`: after it, two elements have one root if they had before, or if each of them was
  together with one of the two that were joined.
-/

namespace ContractSurvey.DisjointSet

/-! ### A look-up -/

theorem size_compressed (d : DisjointSet) (i : Nat) : (d.compressed i).size = d.size :=
  length_compress _ _ _ _

theorem wellFormed_compressed {d : DisjointSet} (hd : d.WellFormed) {i : Nat} (hi : i < d.size) :
    (d.compressed i).WellFormed :=
  ((repoints_compressed hd hi).preserves hd (climbs_root hd hi)).1

/-- A look-up changes no root. -/
theorem root_compressed {d : DisjointSet} (hd : d.WellFormed) {i j : Nat} (hi : i < d.size)
    (hj : j < d.size) : (d.compressed i).root j = d.root j :=
  Climbs.root_eq (wellFormed_compressed hd hi)
    (((repoints_compressed hd hi).preserves hd (climbs_root hd hi)).2 (climbs_root hd hj))

/-- Two look-ups, one after the other, leave the elements and their roots. -/
theorem compressed_compressed {d : DisjointSet} (hd : d.WellFormed) {i j : Nat} (hi : i < d.size)
    (hj : j < d.size) :
    ((d.compressed i).compressed j).WellFormed ∧ ((d.compressed i).compressed j).size = d.size ∧
      ∀ k < d.size, ((d.compressed i).compressed j).root k = d.root k ∧
        ((d.compressed i).compressed j).parent[d.root k]? = some (d.root k) := by
  have hi' := wellFormed_compressed hd hi
  have hj' : j < (d.compressed i).size := by rwa [size_compressed]
  have hij := wellFormed_compressed hi' hj'
  have hsize : ((d.compressed i).compressed j).size = d.size := by
    rw [size_compressed, size_compressed]
  refine ⟨hij, hsize, fun k hk => ?_⟩
  have hroot : ((d.compressed i).compressed j).root k = d.root k := by
    rw [root_compressed hi' hj' (by rwa [size_compressed]), root_compressed hd hi hk]
  exact ⟨hroot, hroot ▸ (climbs_root hij (by rwa [hsize])).isRoot⟩

theorem find_natCast {d : DisjointSet} {i : Nat} (hi : i < d.size) :
    d.find (i : Int) = (.ok (d.root i), d.compressed i) := by
  simp [find, Sequence.slot_natCast hi]

/-! ### A link -/

/-- Hanging a root below another one: what climbed to the first climbs to the second. -/
theorem Climbs.hang {parent : List Nat} {a b j s : Nat} (ha : parent[a]? = some a)
    (hb : parent[b]? = some b) (hab : a ≠ b) (h : Climbs parent j s) :
    Climbs (parent.set b a) j (if s = b then a else s) := by
  have hb' : b < parent.length := (List.getElem?_eq_some_iff.mp hb).1
  induction h with
  | @root j hj =>
      by_cases e : j = b
      · subst e
        rw [if_pos rfl]
        refine .step (List.getElem?_set_self hb') hab (.root ?_)
        rw [List.getElem?_set_ne hab.symm, ha]
      · rw [if_neg e]
        exact .root (by rw [List.getElem?_set_ne (Ne.symm e), hj])
  | @step j p s hp hne _ ih =>
      have e : b ≠ j := by
        rintro rfl
        exact hne (parent_unique hp hb)
      exact .step (by rw [List.getElem?_set_ne e, hp]) hne ih

/-- The forest with the root `b` below the root `a`, which is of no smaller rank. -/
def hung (d : DisjointSet) (a b : Nat) : DisjointSet :=
  { parent := d.parent.set b a
    rank :=
      if d.rank.getD a 0 = d.rank.getD b 0 then d.rank.set a (d.rank.getD a 0 + 1) else d.rank }

/-- A link hangs one of two roots below the other, the one of smaller rank below. -/
theorem link_eq_hung (d : DisjointSet) (a b : Nat) :
    d.rank.getD b 0 ≤ d.rank.getD a 0 ∧ d.link a b = d.hung a b ∨
      d.rank.getD a 0 < d.rank.getD b 0 ∧ d.link a b = d.hung b a := by
  by_cases h : d.rank.getD a 0 < d.rank.getD b 0
  · exact .inr ⟨h, by simp only [link, hung, if_pos h]⟩
  · exact .inl ⟨by omega, by simp only [link, hung, if_neg h]⟩

theorem WellFormed.hung {d : DisjointSet} (hd : d.WellFormed) {a b : Nat}
    (ha : d.parent[a]? = some a) (hb : d.parent[b]? = some b) (hab : a ≠ b)
    (hr : d.rank.getD b 0 ≤ d.rank.getD a 0) : (d.hung a b).WellFormed := by
  have ha' : a < d.rank.length := hd.length_rank ▸ hd.parent_lt ha
  have hb' : b < d.parent.length := hd.parent_lt hb
  -- only the rank of `a` can have grown
  have hle (i : Nat) : d.rank.getD i 0 ≤ (d.hung a b).rank.getD i 0 := by
    grind [DisjointSet.hung]
  have heq {i : Nat} (hi : i ≠ a) : (d.hung a b).rank.getD i 0 = d.rank.getD i 0 := by
    grind [DisjointSet.hung]
  have hgt : d.rank.getD b 0 < (d.hung a b).rank.getD a 0 := by
    grind [DisjointSet.hung]
  have hlen : (d.hung a b).rank.length = d.size := by
    have := hd.length_rank
    grind [DisjointSet.hung]
  refine hd.point hb' (hd.parent_lt ha) hlen (fun _ => ?_) fun i p _ hp hne => ?_
  · exact (heq hab.symm).trans_lt hgt
  · have hia : i ≠ a := by
      rintro rfl
      exact hne (parent_unique hp ha)
    exact (heq hia).trans_lt ((hd.rank_lt hp hne).trans_le (hle p))

theorem size_link (d : DisjointSet) (a b : Nat) : (d.link a b).size = d.size := by
  rcases link_eq_hung d a b with ⟨-, h⟩ | ⟨-, h⟩ <;> simp [h, hung, size]

theorem wellFormed_link {d : DisjointSet} (hd : d.WellFormed) {a b : Nat}
    (ha : d.parent[a]? = some a) (hb : d.parent[b]? = some b) (hab : a ≠ b) :
    (d.link a b).WellFormed := by
  rcases link_eq_hung d a b with ⟨hr, h⟩ | ⟨hr, h⟩ <;> rw [h]
  · exact hd.hung ha hb hab hr
  · exact hd.hung hb ha hab.symm hr.le

/-- Hanging the root `b` below the root `a` gives the elements of both sets the root `a`. -/
theorem root_hung {d : DisjointSet} (hd : d.WellFormed) {a b : Nat} (ha : d.parent[a]? = some a)
    (hb : d.parent[b]? = some b) (hab : a ≠ b) (hr : d.rank.getD b 0 ≤ d.rank.getD a 0) {j : Nat}
    (hj : j < d.size) : (d.hung a b).root j = if d.root j = b then a else d.root j :=
  Climbs.root_eq (hd.hung ha hb hab hr) ((climbs_root hd hj).hang ha hb hab)

/-- A link of two roots makes one of them the root of both sets. -/
theorem root_link {d : DisjointSet} (hd : d.WellFormed) {a b : Nat}
    (ha : d.parent[a]? = some a) (hb : d.parent[b]? = some b) (hab : a ≠ b) :
    ∃ w, (w = a ∨ w = b) ∧ ∀ j < d.size,
      (d.link a b).root j = if d.root j = a ∨ d.root j = b then w else d.root j := by
  rcases link_eq_hung d a b with ⟨hr, h⟩ | ⟨hr, h⟩ <;> rw [h]
  · refine ⟨a, .inl rfl, fun j hj => ?_⟩
    rw [root_hung hd ha hb hab hr hj]
    grind
  · refine ⟨b, .inr rfl, fun j hj => ?_⟩
    rw [root_hung hd hb ha hab.symm hr.le hj]
    grind

/-! ### A union -/

theorem union_natCast {d : DisjointSet} (hd : d.WellFormed) {i j : Nat} (hi : i < d.size)
    (hj : j < d.size) :
    d.union (i : Int) (j : Int) =
      if d.root i = d.root j then (.ok false, (d.compressed i).compressed j)
      else (.ok true, ((d.compressed i).compressed j).link (d.root i) (d.root j)) := by
  have hj' : j < (d.compressed i).size := by rwa [size_compressed]
  simp only [union, find_natCast hi, find_natCast hj', root_compressed hd hi hj]

/-- What a union does to the forest: the elements stay and it stays well-formed, and the two sets
become one. -/
theorem root_union {d : DisjointSet} (hd : d.WellFormed) {i j : Nat} (hi : i < d.size)
    (hj : j < d.size) :
    (d.union (i : Int) (j : Int)).2.WellFormed ∧ (d.union (i : Int) (j : Int)).2.size = d.size ∧
      ∀ k < d.size, ∀ l < d.size,
        ((d.union (i : Int) (j : Int)).2.root k = (d.union (i : Int) (j : Int)).2.root l ↔
          d.root k = d.root l ∨ d.root k = d.root i ∧ d.root l = d.root j ∨
            d.root k = d.root j ∧ d.root l = d.root i) := by
  obtain ⟨hij, hsize, hroots⟩ := compressed_compressed hd hi hj
  have hroot : ∀ k < d.size, ((d.compressed i).compressed j).root k = d.root k :=
    fun k hk => (hroots k hk).1
  rw [union_natCast hd hi hj]
  by_cases e : d.root i = d.root j
  · rw [if_pos e]
    refine ⟨hij, hsize, fun k hk l hl => ?_⟩
    rw [hroot k hk, hroot l hl]
    grind
  · rw [if_neg e]
    have ha := (hroots i hi).2
    have hb := (hroots j hj).2
    refine ⟨wellFormed_link hij ha hb e, by rw [size_link, hsize], fun k hk l hl => ?_⟩
    obtain ⟨w, hw, hlink⟩ := root_link hij ha hb e
    rw [hlink k (by rwa [hsize]), hlink l (by rwa [hsize]), hroot k hk, hroot l hl]
    grind

end ContractSurvey.DisjointSet
