import ContractSurvey.Proofs.DisjointSet.Steps
import Mathlib.Algebra.Ring.Nat
import Mathlib.Data.Nat.Log

/-!
# Proofs — DisjointSet — Rank

How long the walks of a look-up can get.  The rank grows with every step up, so a way to a root of
rank `r` has at most `r` steps (`Climbs.exists_ancestor`).  A root of rank `r` has at least `2 ^ r`
elements in its set (`Heavy`), so that no rank exceeds the logarithm of the number of elements.

`WellFormed` alone does not bound the ranks: what carries the bound is `Heavy`.  Compression keeps
it, since ranks and roots stay (`Heavy.compressed`).  A link of roots of different ranks only makes
the greater one's set larger, and one of equal ranks, where the rank grows, puts two sets together
that are both large enough (`Heavy.hung`).
-/

namespace ContractSurvey.DisjointSet

/-! ### The set of a root -/

/-- The elements whose root this is. -/
def members (d : DisjointSet) (r : Nat) : Finset Nat :=
  (Finset.range d.size).filter fun i => d.root i = r

theorem mem_members {d : DisjointSet} {r i : Nat} :
    i ∈ d.members r ↔ i < d.size ∧ d.root i = r := by
  simp [members]

theorem card_members_le (d : DisjointSet) (r : Nat) : (d.members r).card ≤ d.size :=
  (Finset.card_filter_le _ _).trans_eq (Finset.card_range _)

/-- A root of rank `r` has at least `2 ^ r` elements in its set. -/
def Heavy (d : DisjointSet) : Prop :=
  ∀ r, d.parent[r]? = some r → 2 ^ d.rank.getD r 0 ≤ (d.members r).card

theorem root_eq_self_iff {d : DisjointSet} (hd : d.WellFormed) {r : Nat} (hr : r < d.size) :
    d.root r = r ↔ d.parent[r]? = some r := by
  refine ⟨fun h => ?_, fun h => Climbs.root_eq hd (.root h)⟩
  have hroot := (climbs_root hd hr).isRoot
  rwa [h] at hroot

theorem heavy_ofSize (n : Nat) : (ofSize n).Heavy := by
  intro r hr
  have hrn : r < n := by simpa using (wellFormed_ofSize n).parent_lt hr
  have hmem : r ∈ (ofSize n).members r := mem_members.mpr ⟨by simpa, root_ofSize hrn⟩
  have hrank : (ofSize n).rank.getD r 0 = 0 := by simp [ofSize, hrn]
  rw [hrank, Nat.pow_zero]
  exact Finset.card_pos.mpr ⟨r, hmem⟩

/-! ### Steps -/

theorem members_compressed {d : DisjointSet} (hd : d.WellFormed) {i : Nat} (hi : i < d.size)
    (r : Nat) : (d.compressed i).members r = d.members r := by
  ext j
  rw [mem_members, mem_members, size_compressed]
  exact and_congr_right fun hj => by rw [root_compressed hd hi hj]

theorem Heavy.compressed {d : DisjointSet} (hd : d.WellFormed) (h : d.Heavy) {i : Nat}
    (hi : i < d.size) : (d.compressed i).Heavy := by
  intro r hr
  have hd' := wellFormed_compressed hd hi
  have hrd : r < d.size := size_compressed d i ▸ hd'.parent_lt hr
  have hroot : d.root r = r := by
    rw [← root_compressed hd hi hrd]
    exact Climbs.root_eq hd' (.root hr)
  rw [members_compressed hd hi]
  exact h r ((root_eq_self_iff hd hrd).mp hroot)

theorem size_hung (d : DisjointSet) (a b : Nat) : (d.hung a b).size = d.size := by
  simp [hung, size]

section
variable {d : DisjointSet} (hd : d.WellFormed) {a b : Nat} (ha : d.parent[a]? = some a)
  (hb : d.parent[b]? = some b) (hab : a ≠ b) (hr : d.rank.getD b 0 ≤ d.rank.getD a 0)

include hd ha hb hab hr

/-- The root that stays one takes over the other one's set. -/
theorem card_members_hung :
    ((d.hung a b).members a).card = (d.members a).card + (d.members b).card := by
  have hdisjoint : Disjoint (d.members a) (d.members b) := by
    rw [Finset.disjoint_left]
    intro j hja hjb
    exact hab ((mem_members.mp hja).2.symm.trans (mem_members.mp hjb).2)
  rw [← Finset.card_union_of_disjoint hdisjoint]
  congr 1
  ext j
  simp only [Finset.mem_union, mem_members, size_hung, ← and_or_left]
  refine and_congr_right fun hj => ?_
  rw [root_hung hd ha hb hab hr hj]
  grind

theorem members_hung_of_ne {r : Nat} (hra : r ≠ a) (hrb : r ≠ b) :
    (d.hung a b).members r = d.members r := by
  ext j
  rw [mem_members, mem_members, size_hung]
  refine and_congr_right fun hj => ?_
  rw [root_hung hd ha hb hab hr hj]
  grind

theorem Heavy.hung (h : d.Heavy) : (d.hung a b).Heavy := by
  intro r hroot
  have hd' := hd.hung ha hb hab hr
  have hrd : r < d.size := size_hung d a b ▸ hd'.parent_lt hroot
  have hself : (if d.root r = b then a else d.root r) = r := by
    rw [← root_hung hd ha hb hab hr hrd]
    exact Climbs.root_eq hd' (.root hroot)
  have ha' : a < d.rank.length := hd.length_rank ▸ hd.parent_lt ha
  by_cases hra : r = a
  · subst hra
    have hrank : 2 ^ (d.hung r b).rank.getD r 0 ≤ 2 ^ d.rank.getD r 0 + 2 ^ d.rank.getD b 0 := by
      by_cases e : d.rank.getD r 0 = d.rank.getD b 0
      · have hgrown : (d.hung r b).rank.getD r 0 = d.rank.getD r 0 + 1 := by
          grind [DisjointSet.hung]
        rw [hgrown, ← e, Nat.pow_succ, Nat.mul_two]
      · have hsame : (d.hung r b).rank.getD r 0 = d.rank.getD r 0 := by
          grind [DisjointSet.hung]
        rw [hsame]
        exact Nat.le_add_right _ _
    calc 2 ^ (d.hung r b).rank.getD r 0
        ≤ 2 ^ d.rank.getD r 0 + 2 ^ d.rank.getD b 0 := hrank
      _ ≤ (d.members r).card + (d.members b).card := Nat.add_le_add (h r ha) (h b hb)
      _ = ((d.hung r b).members r).card := (card_members_hung hd ha hb hab hr).symm
  · -- a root other than `a` was one before, and it is not `b`
    have hne : d.root r ≠ b := fun e => hra (hself.symm.trans (if_pos e))
    rw [if_neg hne] at hself
    have hrb : r ≠ b := fun e => hne (hself.trans e)
    have hrank : (d.hung a b).rank.getD r 0 = d.rank.getD r 0 := by
      grind [DisjointSet.hung]
    rw [hrank, members_hung_of_ne hd ha hb hab hr hra hrb]
    exact h r ((root_eq_self_iff hd hrd).mp hself)

end

/-- A step keeps the sets of the roots large enough. -/
theorem Heavy.step {d d' : DisjointSet} (hd : d.WellFormed) (h : d.Heavy) (hstep : Step d d') :
    d'.Heavy := by
  cases hstep with
  | compress hi => exact h.compressed hd hi
  | @link a b ha hb hab =>
      rcases link_eq_hung d a b with ⟨hr, e⟩ | ⟨hr, e⟩ <;> rw [e]
      · exact h.hung hd ha hb hab hr
      · exact h.hung hd hb ha hab.symm hr.le

theorem heavy_run (n : Nat) (calls : List Call) : (run n calls).Heavy :=
  run_keep (fun hd h hstep => h.step hd hstep) (heavy_ofSize n) calls

/-! ### The way up -/

/-- The element that so many steps to the parent lead to. -/
def ancestor? (parent : List Nat) : Nat → Nat → Option Nat
  | 0, i => some i
  | steps + 1, i => parent[i]?.bind (ancestor? parent steps)

/-- A climb goes up by steps that each make the rank greater. -/
theorem Climbs.exists_ancestor {d : DisjointSet} (hd : d.WellFormed) {i r : Nat}
    (h : Climbs d.parent i r) :
    ∃ steps, ancestor? d.parent steps i = some r ∧ d.rank.getD i 0 + steps ≤ d.rank.getD r 0 := by
  induction h with
  | root _ => exact ⟨0, rfl, le_rfl⟩
  | step hp hne _ ih =>
      obtain ⟨steps, hsteps, hrank⟩ := ih
      refine ⟨steps + 1, by rw [ancestor?, hp, Option.bind_some, hsteps], ?_⟩
      have hlt := hd.rank_lt hp hne
      omega

theorem Heavy.rank_le_log {d : DisjointSet} (h : d.Heavy) {r : Nat} (hr : d.parent[r]? = some r) :
    d.rank.getD r 0 ≤ Nat.log 2 d.size :=
  Nat.le_log_of_pow_le Nat.one_lt_two ((h r hr).trans (card_members_le d r))

/-- **Ranks bound the walks**, after any calls on `n` elements.  Parents are elements, the rank
grows from every element that is no root to its parent, and a root of rank `r` has at least `2 ^ r`
elements in its set; hence at most `log₂ n` steps lead from an element to a root, and both walks of
a look-up end. -/
theorem run_ranked (n : Nat) (calls : List Call) :
    (run n calls).size = n ∧ (run n calls).WellFormed ∧ (run n calls).Heavy ∧
    ∀ i < n, ∃ r d', (∃ steps ≤ Nat.log 2 n, ancestor? (run n calls).parent steps i = some r) ∧
      (run n calls).parent[r]? = some r ∧
      (run n calls).find (i : Int) = (.ok r, d') ∧ Finds (run n calls) i r d' := by
  have hd := wellFormed_run n calls
  have hsize := size_run n calls
  have hheavy := heavy_run n calls
  refine ⟨hsize, hd, hheavy, fun i hi => ?_⟩
  have hi' : i < (run n calls).size := by rwa [hsize]
  have hclimb := climbs_root hd hi'
  obtain ⟨steps, hsteps, hrank⟩ := hclimb.exists_ancestor hd
  have hle : steps ≤ Nat.log 2 n := by
    have hlog := hheavy.rank_le_log hclimb.isRoot
    rw [hsize] at hlog
    omega
  exact ⟨_, _, ⟨steps, hle, hsteps⟩, hclimb.isRoot, find_natCast hi', finds_root hd hi'⟩

/-- The bound is met: two steps among four elements. -/
example :
    ancestor? (run 4 [.union 0 1, .union 2 3, .union 0 2]).parent 1 3 = some 2 ∧
      ancestor? (run 4 [.union 0 1, .union 2 3, .union 0 2]).parent 2 3 = some 0 := by
  decide

end ContractSurvey.DisjointSet
