import ContractSurvey.Proofs.Comparison.Exchange
import ContractSurvey.Proofs.Comparison.Ranking

/-!
# Proofs — Comparison — Matrix

The similarities of a comparison as a square.  The list of similarities is sorted by height and
leaves out the pairs without a function, and the matrix finds each of them by the places of its two
addresses.

* `matrixEntry_comm`: the matrix of any comparison is symmetric.
* `mem_placed_iff`: for contracts of different addresses there is one similarity at two places, the
  lower one first, and it is the one of the contracts there.
* `shows_matrix`: the matrix of a comparison made of profiles shows, for any two of them, the
  similarity that they have in either order.
-/

namespace ContractSurvey

/-- Exchanging two contracts keeps the percentage of their similarity, whatever names they use. -/
theorem Similarity.map_percent_comm (a b : Profile) :
    (of? b a).map (·.percent) = (of? a b).map (·.percent) := by
  have hunion := perm_union a b
  simp only [of?, hunion.isEmpty_eq]
  split
  · rfl
  · rw [Option.map_some, Option.map_some, hunion.length_eq, (perm_common a b).length_eq]

namespace Comparison

variable {c : Comparison} {i j : Nat}

/-! ### Entries -/

/-- What stands at two places of a matrix, if it has them. -/
def cell? (m : List (List Binary64)) (i j : Nat) : Option Binary64 := m[i]?.bind (·[j]?)

theorem cell?_matrix (hi : i < c.profiles.length) (hj : j < c.profiles.length) :
    cell? c.matrix i j = some (c.matrixEntry i j) := by
  simp [cell?, matrix_eq, hi, hj]

theorem cell?_matrix_eq_none (h : ¬ (i < c.profiles.length ∧ j < c.profiles.length)) :
    cell? c.matrix i j = none := by
  by_cases hi : i < c.profiles.length
  · have hj : c.profiles.length ≤ j := Nat.le_of_not_lt fun hj => h ⟨hi, hj⟩
    simp [cell?, matrix_eq, hi, hj]
  · simp [cell?, matrix_eq, Nat.le_of_not_lt hi]

theorem matrixEntry_comm (c : Comparison) (i j : Nat) : c.matrixEntry i j = c.matrixEntry j i := by
  have hpair (p : (Nat × Nat) × Binary64) :
      (decide (p.1 = (i, j)) || decide (p.1 = (j, i))) =
        (decide (p.1 = (j, i)) || decide (p.1 = (i, j))) := Bool.or_comm _ _
  simp only [matrixEntry, entryIn, hpair, @eq_comm _ i j]

/-! ### Similarities at their places -/

theorem mem_placed {x : Binary64} : ((i, j), x) ∈ c.placed ↔
    ∃ s ∈ c.similarities, c.placesOf? s = some (i, j) ∧ s.percent = x := by
  simp only [placed, List.mem_filterMap, List.mem_reverse, Option.map_eq_some_iff, Prod.mk.injEq]
  constructor
  · rintro ⟨s, hs, _, hij, rfl, rfl⟩
    exact ⟨s, hs, hij, rfl⟩
  · rintro ⟨s, hs, hij, rfl⟩
    exact ⟨s, hs, _, hij, rfl, rfl⟩

section

variable {threshold : Binary64} {profiles : List Profile} {failed : List String}
  {network : Option String}

theorem mem_outcome_similarities {s : Similarity} :
    s ∈ (outcome threshold profiles failed network).similarities ↔
      ∃ (i j : Nat) (p q : Profile), i < j ∧ profiles[i]? = some p ∧ profiles[j]? = some q ∧
        Similarity.of? p q = some s := by
  rw [outcome_similarities, List.mem_mergeSort, ← map_snd_placedSimilarities, List.mem_map]
  constructor
  · rintro ⟨⟨⟨i, j⟩, s⟩, hmem, rfl⟩
    obtain ⟨hij, hs⟩ := mem_placedSimilarities.mp hmem
    exact ⟨i, j, _, _, hij, List.getElem?_eq_getElem i.isLt, List.getElem?_eq_getElem j.isLt, hs⟩
  · rintro ⟨i, j, p, q, hij, hp, hq, hs⟩
    obtain ⟨hi, rfl⟩ := List.getElem?_eq_some_iff.mp hp
    obtain ⟨hj, rfl⟩ := List.getElem?_eq_some_iff.mp hq
    exact ⟨((⟨i, hi⟩, ⟨j, hj⟩), s), mem_placedSimilarities.mpr ⟨hij, hs⟩, rfl⟩

/-- The similarity at two places is that of the contracts there, the lower place first. -/
theorem mem_placed_iff (hn : (keys profiles).Nodup) {x : Binary64} :
    ((i, j), x) ∈ (outcome threshold profiles failed network).placed ↔
      ∃ p q, i < j ∧ profiles[i]? = some p ∧ profiles[j]? = some q ∧
        (Similarity.of? p q).map (·.percent) = some x := by
  have hprofiles : (outcome threshold profiles failed network).profiles = profiles :=
    outcome_profiles
  have hdistinct : (outcome threshold profiles failed network).DistinctAddresses :=
    distinctAddresses_of_nodup_keys (hprofiles.symm ▸ hn)
  have hplaces {i j : Nat} {p q : Profile} {s : Similarity} (hp : profiles[i]? = some p)
      (hq : profiles[j]? = some q) (hs : Similarity.of? p q = some s) :
      (outcome threshold profiles failed network).placesOf? s = some (i, j) := by
    obtain ⟨hfirst, hsecond, -⟩ := Similarity.of?_eq_some hs
    rw [placesOf?_eq_some_iff, hfirst, hsecond]
    exact ⟨hdistinct.placeOf? (hprofiles.symm ▸ hp), hdistinct.placeOf? (hprofiles.symm ▸ hq)⟩
  rw [mem_placed]
  constructor
  · rintro ⟨s, hs, hij, rfl⟩
    obtain ⟨i', j', p, q, hlt, hp, hq, hs⟩ := mem_outcome_similarities.mp hs
    rw [hplaces hp hq hs, Option.some.injEq, Prod.mk.injEq] at hij
    obtain ⟨rfl, rfl⟩ := hij
    exact ⟨p, q, hlt, hp, hq, by rw [hs, Option.map_some]⟩
  · rintro ⟨p, q, hlt, hp, hq, hx⟩
    obtain ⟨s, hs, rfl⟩ := Option.map_eq_some_iff.mp hx
    exact ⟨s, mem_outcome_similarities.mpr ⟨i, j, p, q, hlt, hp, hq, hs⟩, hplaces hp hq hs, rfl⟩

theorem lower_ne_of_ne (hn : (keys profiles).Nodup) {p q : Profile} (hij : i ≠ j)
    (hp : profiles[i]? = some p) (hq : profiles[j]? = some q) :
    Text.lower p.address ≠ Text.lower q.address := by
  obtain ⟨hi, rfl⟩ := List.getElem?_eq_some_iff.mp hp
  obtain ⟨hj, rfl⟩ := List.getElem?_eq_some_iff.mp hq
  rcases Nat.lt_or_gt_of_ne hij with hlt | hgt
  · exact lower_ne_of_nodup_keys hn (i := ⟨i, hi⟩) (j := ⟨j, hj⟩) hlt
  · exact (lower_ne_of_nodup_keys hn (i := ⟨j, hj⟩) (j := ⟨i, hi⟩) hgt).symm

/-- No similarity is at one place. -/
theorem matrixEntry_self (hn : (keys profiles).Nodup) (i : Nat) :
    (outcome threshold profiles failed network).matrixEntry i i = 100 := by
  rw [matrixEntry, entryIn]
  split
  · next p hfind =>
      obtain ⟨places, x⟩ := p
      obtain rfl : places = (i, i) := by simpa using List.find?_some hfind
      obtain ⟨_, _, hlt, -⟩ := (mem_placed_iff hn).mp (List.mem_of_find?_eq_some hfind)
      exact absurd hlt (Nat.lt_irrefl i)
  · rw [if_pos rfl]

/-- The entry at two different places, the lower one first. -/
theorem matrixEntry_of_lt (hn : (keys profiles).Nodup) {p q : Profile} (hij : i < j)
    (hp : profiles[i]? = some p) (hq : profiles[j]? = some q) :
    (outcome threshold profiles failed network).matrixEntry i j =
      ((Similarity.of? p q).map (·.percent)).getD 0 := by
  rw [matrixEntry, entryIn]
  split
  · next r hfind =>
      obtain ⟨places, x⟩ := r
      have hmem := List.mem_of_find?_eq_some hfind
      have hplaces : places = (i, j) ∨ places = (j, i) := by simpa using List.find?_some hfind
      rcases hplaces with rfl | rfl
      · obtain ⟨p', q', -, hp', hq', hx⟩ := (mem_placed_iff hn).mp hmem
        rw [hp, Option.some.injEq] at hp'
        rw [hq, Option.some.injEq] at hq'
        rw [hp', hq', hx, Option.getD_some]
      · obtain ⟨_, _, hji, -⟩ := (mem_placed_iff hn).mp hmem
        exact absurd hij (Nat.lt_asymm hji)
  · next hfind =>
      -- a similarity of the two would stand at these places
      cases hx : (Similarity.of? p q).map (·.percent) with
      | none => rw [if_neg (Nat.ne_of_lt hij), Option.getD_none]
      | some x =>
          have hmem : ((i, j), x) ∈ (outcome threshold profiles failed network).placed :=
            (mem_placed_iff hn).mpr ⟨p, q, hij, hp, hq, hx⟩
          simpa using List.find?_eq_none.mp hfind _ hmem

/-- The entry at any two different places, for the two contracts in either order. -/
theorem matrixEntry_of_ne (hn : (keys profiles).Nodup) {p q : Profile} (hij : i ≠ j)
    (hp : profiles[i]? = some p) (hq : profiles[j]? = some q) :
    (outcome threshold profiles failed network).matrixEntry i j =
      ((Similarity.of? p q).map (·.percent)).getD 0 := by
  rcases Nat.lt_or_gt_of_ne hij with hlt | hgt
  · exact matrixEntry_of_lt hn hlt hp hq
  · rw [matrixEntry_comm, matrixEntry_of_lt hn hgt hq hp, Similarity.map_percent_comm]

end

/-! ### The matrix -/

/-- The matrix shows the similarities of the contracts, 100 on the diagonal, and 0 for two
contracts without any selector. -/
structure Shows (profiles : List Profile) (m : List (List Binary64)) : Prop where
  length_eq : m.length = profiles.length
  length_row : ∀ row ∈ m, row.length = profiles.length
  diagonal (i : Nat) : i < profiles.length → cell? m i i = some 100
  symmetric (i j : Nat) : cell? m i j = cell? m j i
  similar (i j : Nat) (p q : Profile) : i ≠ j → profiles[i]? = some p → profiles[j]? = some q →
    (∃ s t, Similarity.between p q = .ok (some s) ∧ Similarity.between q p = .ok (some t) ∧
      cell? m i j = some s.percent ∧ cell? m i j = some t.percent) ∨
    (p.selectors = [] ∧ q.selectors = [] ∧ cell? m i j = some 0)

/-- **The matrix of a comparison** is a symmetric square over its contracts and shows the similarity
of any two of them. -/
theorem shows_matrix {threshold : Binary64} {profiles : List Profile} {failed : List String}
    {network : Option String} (h : ofProfiles threshold profiles failed network = .ok c) :
    Shows profiles c.matrix := by
  obtain ⟨hn, rfl⟩ := ofProfiles_eq_ok_iff.mp h
  have hprofiles : (outcome threshold profiles failed network).profiles = profiles :=
    outcome_profiles
  have hcell {i j : Nat} (hi : i < profiles.length) (hj : j < profiles.length) :=
    cell?_matrix (c := outcome threshold profiles failed network) (hprofiles.symm ▸ hi)
      (hprofiles.symm ▸ hj)
  refine ⟨?_, ?_, fun i hi => ?_, fun i j => ?_, fun i j p q hij hp hq => ?_⟩
  · rw [matrix_eq, List.length_map, List.length_range, hprofiles]
  · intro row hrow
    rw [matrix_eq] at hrow
    obtain ⟨i, -, rfl⟩ := List.mem_map.mp hrow
    rw [List.length_map, List.length_range, hprofiles]
  · rw [hcell hi hi, matrixEntry_self hn]
  · by_cases hin : i < profiles.length ∧ j < profiles.length
    · rw [hcell hin.1 hin.2, hcell hin.2 hin.1, matrixEntry_comm]
    · rw [cell?_matrix_eq_none (hprofiles.symm ▸ hin),
        cell?_matrix_eq_none (hprofiles.symm ▸ fun h => hin h.symm)]
  · obtain ⟨hi, -⟩ := List.getElem?_eq_some_iff.mp hp
    obtain ⟨hj, -⟩ := List.getElem?_eq_some_iff.mp hq
    have hne := lower_ne_of_ne hn hij hp hq
    rw [hcell hi hj, matrixEntry_of_ne hn hij hp hq, Similarity.between_of_ne hne,
      Similarity.between_of_ne hne.symm]
    have hcomm := Similarity.map_percent_comm p q
    cases hs : Similarity.of? p q with
    | none =>
        obtain ⟨hnone, hnone'⟩ := Similarity.of?_eq_none_iff.mp hs
        exact .inr ⟨hnone, hnone', rfl⟩
    | some s =>
        rw [hs, Option.map_some] at hcomm
        obtain ⟨t, ht, hpercent⟩ := Option.map_eq_some_iff.mp hcomm
        rw [ht]
        exact .inl ⟨s, t, rfl, rfl, rfl, congrArg some hpercent.symm⟩

/-- Three contracts, of which two pairs have a similarity and one has none. -/
theorem shows_matrix_threeProfiles :
    ∃ c, ofProfiles 80 threeProfiles [] none = .ok c ∧ Shows threeProfiles c.matrix :=
  ⟨_, ofProfiles_threeProfiles, shows_matrix ofProfiles_threeProfiles⟩

end Comparison

end ContractSurvey
