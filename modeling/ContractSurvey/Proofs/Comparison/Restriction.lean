import ContractSurvey.Comparison.Insight
import ContractSurvey.Proofs.Comparison.Ranking
import Mathlib.Data.List.MinMax

/-!
# Proofs — Comparison — Restriction

Filters of a comparison, one after the other.  A filter looks at nothing but the percentages, so a
chain of filters keeps the similarities that each of them keeps (`restricted_eq`).  Where all
thresholds are numbers, one of them is the greatest (`exists_greatest`), and the chain is the filter
at that one.

A comparison lists its similarities from the highest one down, and a filter leaves entries out
without moving any.  So the first ones of what is left are the highest ones
(`restricted_of_ofProfiles`).
-/

namespace ContractSurvey.Comparison

/-- One filter: the least percentage kept, and whether the relationships are. -/
structure Restriction where
  least : Binary64
  withRelationships : Bool

/-- The comparison after some filters, the first one first. -/
def restricted (c : Comparison) (rs : List Restriction) : Comparison :=
  rs.foldl (fun c r => c.restrict r.least r.withRelationships) c

variable {c : Comparison} {rs : List Restriction}

/-! ### Chains of filters -/

/-- A chain keeps what each of its filters keeps, whatever the thresholds are. -/
theorem restricted_eq (c : Comparison) (rs : List Restriction) :
    c.restricted rs =
      { c with
        similarities := c.similarities.filter fun s => rs.all (·.least ≤ s.percent)
        relationships := if rs.all (·.withRelationships) then c.relationships else [] } := by
  induction rs generalizing c with
  | nil => simp [restricted]
  | cons r rs ih =>
      have hsimilarities : (c.similarities.filter fun s => r.least ≤ s.percent).filter
          (fun s => rs.all (·.least ≤ s.percent)) =
            c.similarities.filter fun s => (r :: rs).all (·.least ≤ s.percent) := by
        rw [List.filter_filter]
        exact List.filter_congr fun s _ => by rw [List.all_cons, Bool.and_comm]
      show (c.restrict r.least r.withRelationships).restricted rs = _
      rw [ih, restrict, hsimilarities, List.all_cons]
      cases r.withRelationships <;> simp

/-- A row of numbers has a greatest one. -/
theorem exists_greatest {xs : List Binary64} (hne : xs ≠ []) (h : ∀ x ∈ xs, x.isNaN = false) :
    ∃ m ∈ xs, ∀ x ∈ xs, x ≤ m := by
  cases hm : xs.argmax Binary64.units with
  | none => exact absurd (List.argmax_eq_none.mp hm) hne
  | some m =>
      have hmem := List.argmax_mem hm
      refine ⟨m, hmem, fun x hx => ?_⟩
      exact (Binary64.le_iff_units (h x hx) (h m hmem)).mpr (List.le_of_mem_argmax hx hm)

/-- The greatest threshold decides for all. -/
theorem all_least_le {m : Binary64} (hmem : m ∈ rs.map (·.least))
    (hmax : ∀ y ∈ rs.map (·.least), y ≤ m) (x : Binary64) :
    (rs.all fun r => r.least ≤ x) = decide (m ≤ x) := by
  rw [Bool.eq_iff_iff, List.all_eq_true, decide_eq_true_iff]
  simp only [decide_eq_true_eq]
  constructor
  · intro h
    obtain ⟨r, hr, rfl⟩ := List.mem_map.mp hmem
    exact h r hr
  · exact fun h r hr => Binary64.le_trans (hmax _ (List.mem_map_of_mem hr)) h

/-! ### The highest similarities -/

theorem pairwise_outcome_similarities {threshold : Binary64} {profiles : List Profile}
    {failed : List String} {network : Option String} (hn : (keys profiles).Nodup) :
    (outcome threshold profiles failed network).similarities.Pairwise
      fun s t => t.percent ≤ s.percent := by
  obtain ⟨ranked, hranking, heq⟩ := exists_ranking hn
  rw [outcome_similarities, heq, List.pairwise_map]
  exact hranking.ordered.imp fun h => h.1

theorem length_top (c : Comparison) (limit : Nat) :
    (c.top (some limit)).length = min limit c.similarities.length := by
  simp [top, Sequence.upTo, Sequence.place]

/-- Where the similarities are listed from the highest one down, none of the first ones is below
one that is left out. -/
theorem exists_top_append (h : c.similarities.Pairwise fun s t => t.percent ≤ s.percent)
    (limit : Nat) : ∃ left, c.top (some limit) ++ left = c.similarities ∧
      ∀ s ∈ c.top (some limit), ∀ t ∈ left, t.percent ≤ s.percent := by
  have hsplit := Sequence.upTo_append_startingAt c.similarities limit
  rw [← hsplit, List.pairwise_append] at h
  exact ⟨_, hsplit, h.2.2⟩

/-- **Filters of a comparison** that was made of profiles, at thresholds that are numbers.  They
leave the similarities of at least the greatest threshold, in their order, and of the rest only the
relationships, and these only if every filter keeps them.  The first similarities of what is left
are as many as asked for, if there are, and none of them is below one that is left out. -/
theorem restricted_of_ofProfiles {threshold : Binary64} {profiles : List Profile}
    {failed : List String} {network : Option String}
    (h : ofProfiles threshold profiles failed network = .ok c) (hne : rs ≠ [])
    (hnumbers : ∀ r ∈ rs, r.least.isNaN = false) :
    (∃ m ∈ rs.map (·.least), (∀ x ∈ rs.map (·.least), x ≤ m) ∧
      c.restricted rs =
        { c with
          similarities := c.similarities.filter fun s => m ≤ s.percent
          relationships := if ∃ r ∈ rs, r.withRelationships = false then []
            else c.relationships }) ∧
    (c.restricted rs).similarities.Pairwise (fun s t => t.percent ≤ s.percent) ∧
    ∀ limit : Nat,
      ((c.restricted rs).top (some limit)).length =
        min limit (c.restricted rs).similarities.length ∧
      ∃ left, (c.restricted rs).top (some limit) ++ left = (c.restricted rs).similarities ∧
        ∀ s ∈ (c.restricted rs).top (some limit), ∀ t ∈ left, t.percent ≤ s.percent := by
  have hsorted : (c.restricted rs).similarities.Pairwise fun s t => t.percent ≤ s.percent := by
    obtain ⟨hn, rfl⟩ := ofProfiles_eq_ok_iff.mp h
    rw [restricted_eq]
    exact (pairwise_outcome_similarities hn).filter _
  refine ⟨?_, hsorted, fun limit => ⟨length_top _ limit, exists_top_append hsorted limit⟩⟩
  obtain ⟨m, hmem, hmax⟩ := exists_greatest (mt List.map_eq_nil_iff.mp hne)
    (List.forall_mem_map.mpr hnumbers)
  refine ⟨m, hmem, hmax, ?_⟩
  simp only [restricted_eq, all_least_le hmem hmax]
  by_cases hall : ∃ r ∈ rs, r.withRelationships = false
  · rw [if_pos hall, if_neg (by simpa using hall)]
  · rw [if_neg hall, if_pos (by simpa using hall)]

/-- A filter at 0, and one at -1 that leaves the relationships out. -/
def twoRestrictions : List Restriction := [⟨0, true⟩, ⟨-1, false⟩]

theorem restricted_of_ofProfiles_threeProfiles :
    ∃ c, ofProfiles 80 threeProfiles [] none = .ok c ∧ twoRestrictions ≠ [] ∧
      (∀ r ∈ twoRestrictions, r.least.isNaN = false) ∧
      c.restricted twoRestrictions =
        { c with
          similarities := c.similarities.filter fun s => 0 ≤ s.percent
          relationships := [] } ∧
      (c.restricted twoRestrictions).similarities.Pairwise (fun s t => t.percent ≤ s.percent) ∧
      ((c.restricted twoRestrictions).top (some 1)).length =
        min 1 (c.restricted twoRestrictions).similarities.length := by
  have hne : twoRestrictions ≠ [] := List.cons_ne_nil _ _
  have hnumbers : ∀ r ∈ twoRestrictions, r.least.isNaN = false := by decide +kernel
  obtain ⟨⟨m, hm, hmax, heq⟩, hsorted, htop⟩ :=
    restricted_of_ofProfiles ofProfiles_threeProfiles hne hnumbers
  have hzero : m = 0 := by
    rcases List.mem_cons.mp hm with rfl | hm
    · rfl
    · -- the other threshold is not the greatest
      obtain rfl : m = -1 := List.mem_singleton.mp hm
      exact absurd (hmax 0 List.mem_cons_self) (by decide +kernel)
  have hsome : ∃ r ∈ twoRestrictions, r.withRelationships = false := by decide +kernel
  rw [hzero, if_pos hsome] at heq
  exact ⟨_, ofProfiles_threeProfiles, hne, hnumbers, heq, hsorted, (htop 1).1⟩

end ContractSurvey.Comparison
