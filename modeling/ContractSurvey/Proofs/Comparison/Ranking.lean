import ContractSurvey.Proofs.Comparison.Result
import ContractSurvey.Proofs.Sequence.Order
import Mathlib.Data.List.FinRange

/-!
# Proofs — Comparison — Ranking

The result of a comparison by the places of its contracts.  `indexPairs` lists the pairs of places
in the order of two nested loops.  A `Ranking` lists the similarities: each pair of places whose
contracts have a function between them once, from the highest percentage to the lowest, and pairs
of one percentage in the order of their places.

`ofProfiles_result` is the whole of it: a comparison fails exactly on a repeated address, and else
its similarities are a ranking and its relationships those of all pairs, in order.
-/

namespace ContractSurvey.Comparison

/-! ### Pairs of places -/

/-- The pairs of two different places, the lower one first, in the order of their places. -/
def indexPairs (n : Nat) : List (Fin n × Fin n) :=
  (List.finRange n).flatMap fun i => ((List.finRange n).filter (i < ·)).map (i, ·)

/-- The order of pairs of places: by the first one, then by the second. -/
def Before {n : Nat} (p q : Fin n × Fin n) : Prop := p.1 < q.1 ∨ p.1 = q.1 ∧ p.2 < q.2

theorem mem_indexPairs {n : Nat} {i j : Fin n} : (i, j) ∈ indexPairs n ↔ i < j := by
  simp [indexPairs]

theorem pairwise_indexPairs (n : Nat) : (indexPairs n).Pairwise Before := by
  refine List.pairwise_flatMap.mpr ⟨fun i _ => ?_, ?_⟩
  · refine List.pairwise_map.mpr (((List.pairwise_lt_finRange n).filter _).imp fun h => ?_)
    exact .inr ⟨rfl, h⟩
  · refine (List.pairwise_lt_finRange n).imp fun {i j} hij p hp q hq => ?_
    obtain ⟨_, -, rfl⟩ := List.mem_map.mp hp
    obtain ⟨_, -, rfl⟩ := List.mem_map.mp hq
    exact .inl hij

theorem indexPairs_succ (n : Nat) :
    indexPairs (n + 1) = (List.finRange n).map (fun j => (0, j.succ)) ++
      (indexPairs n).map fun ij => (ij.1.succ, ij.2.succ) := by
  simp [indexPairs, List.finRange_succ, List.filter_map, List.flatMap_map, List.map_flatMap,
    Function.comp_def]

/-- The pairs of a list are those at its pairs of places. -/
theorem pairs_eq_map_indexPairs {α : Type} (xs : List α) :
    pairs xs = (indexPairs xs.length).map fun ij => (xs[ij.1], xs[ij.2]) := by
  induction xs with
  | nil => rfl
  | cons a xs ih =>
      have hrest : xs.map (a, ·) = (List.finRange xs.length).map fun j => (a, xs[j]) := by
        conv_lhs => rw [← List.map_getElem_finRange xs]
        rw [List.map_map]
        rfl
      rw [pairs, ih, hrest]
      show _ = (indexPairs (xs.length + 1)).map _
      rw [indexPairs_succ, List.map_append, List.map_map, List.map_map]
      rfl

/-! ### The ranking -/

/-- A list of similarities with the pairs of places of their contracts: each pair whose contracts
have a function between them once, with what the two contracts share; from the highest percentage
to the lowest, and pairs of one percentage in the order of their places. -/
structure Ranking (profiles : List Profile)
    (ranked : List ((Fin profiles.length × Fin profiles.length) × Similarity)) : Prop where
  nodup : (ranked.map Prod.fst).Nodup
  mem_iff (i j : Fin profiles.length) : (i, j) ∈ ranked.map Prod.fst ↔
    i < j ∧ ∃ s, s ∈ profiles[i].selectors ∨ s ∈ profiles[j].selectors
  entry (i j : Fin profiles.length) (s : Similarity) : ((i, j), s) ∈ ranked →
    Similarity.between profiles[i] profiles[j] = .ok (some s) ∧
      s.first = profiles[i].address ∧ s.second = profiles[j].address
  ordered : ranked.Pairwise fun p q =>
    q.2.percent ≤ p.2.percent ∧ (p.2.percent ≤ q.2.percent → Before p.1 q.1)

/-- The similarities of a list of contracts with their pairs of places, in the order of these. -/
def placedSimilarities (profiles : List Profile) :
    List ((Fin profiles.length × Fin profiles.length) × Similarity) :=
  (indexPairs profiles.length).filterMap fun ij =>
    (Similarity.of? profiles[ij.1] profiles[ij.2]).map (ij, ·)

theorem mem_placedSimilarities {profiles : List Profile} {i j : Fin profiles.length}
    {s : Similarity} : ((i, j), s) ∈ placedSimilarities profiles ↔
      i < j ∧ Similarity.of? profiles[i] profiles[j] = some s := by
  simp only [placedSimilarities, List.mem_filterMap, Option.map_eq_some_iff, Prod.mk.injEq]
  constructor
  · rintro ⟨_, hij, _, hs, rfl, rfl⟩
    exact ⟨mem_indexPairs.mp hij, hs⟩
  · rintro ⟨hij, hs⟩
    exact ⟨_, mem_indexPairs.mpr hij, _, hs, rfl, rfl⟩

theorem pairwise_placedSimilarities (profiles : List Profile) :
    (placedSimilarities profiles).Pairwise fun p q => Before p.1 q.1 := by
  refine (pairwise_indexPairs profiles.length).filterMap _ fun ij kl h p hp q hq => ?_
  obtain ⟨_, -, rfl⟩ := Option.map_eq_some_iff.mp hp
  obtain ⟨_, -, rfl⟩ := Option.map_eq_some_iff.mp hq
  exact h

theorem map_snd_placedSimilarities (profiles : List Profile) :
    (placedSimilarities profiles).map Prod.snd =
      (pairs profiles).filterMap fun ab => Similarity.of? ab.1 ab.2 := by
  rw [pairs_eq_map_indexPairs, List.filterMap_map, placedSimilarities, List.map_filterMap]
  refine List.filterMap_congr fun ij _ => ?_
  simp [Option.map_map, Function.comp_def]

theorem isNaN_of_mem_placedSimilarities {profiles : List Profile}
    {p : (Fin profiles.length × Fin profiles.length) × Similarity}
    (h : p ∈ placedSimilarities profiles) : p.2.percent.isNaN = false :=
  (Similarity.of?_eq_some (mem_placedSimilarities.mp h).2).2.2

theorem lower_ne_of_nodup_keys {profiles : List Profile} (h : (keys profiles).Nodup)
    {i j : Fin profiles.length} (hij : i < j) :
    Text.lower profiles[i].address ≠ Text.lower profiles[j].address :=
  List.pairwise_iff_getElem.mp (List.pairwise_map.mp h) i j i.isLt j.isLt hij

/-- The similarities of contracts of different addresses, listed by their height, are a ranking. -/
theorem exists_ranking {profiles : List Profile} (h : (keys profiles).Nodup) :
    ∃ ranked, Ranking profiles ranked ∧
      ((pairs profiles).filterMap fun ab => Similarity.of? ab.1 ab.2).mergeSort listedBefore =
        ranked.map Prod.snd := by
  -- on numbers, "listed no later" is the order of the units, which is total and transitive
  let le (p q : (Fin profiles.length × Fin profiles.length) × Similarity) : Bool :=
    decide (q.2.percent.units ≤ p.2.percent.units)
  have hle : ∀ p ∈ placedSimilarities profiles, ∀ q ∈ placedSimilarities profiles,
      (le p q = true ↔ q.2.percent ≤ p.2.percent) := by
    intro p hp q hq
    rw [decide_eq_true_iff, Binary64.le_iff_units (isNaN_of_mem_placedSimilarities hq)
      (isNaN_of_mem_placedSimilarities hp)]
  have hlisted : ∀ p ∈ placedSimilarities profiles, ∀ q ∈ placedSimilarities profiles,
      le p q = listedBefore p.2 q.2 := by
    intro p hp q hq
    rw [Bool.eq_iff_iff, hle p hp q hq, listedBefore, Bool.not_eq_true', decide_eq_false_iff_not,
      Binary64.not_lt_iff (isNaN_of_mem_placedSimilarities hp)
        (isNaN_of_mem_placedSimilarities hq)]
  have hmem {p : (Fin profiles.length × Fin profiles.length) × Similarity} :
      p ∈ (placedSimilarities profiles).mergeSort le ↔ p ∈ placedSimilarities profiles :=
    List.mem_mergeSort
  refine ⟨(placedSimilarities profiles).mergeSort le, ⟨?_, fun i j => ?_, fun i j s hs => ?_, ?_⟩,
    ?_⟩
  · refine ((List.mergeSort_perm _ _).map _).nodup_iff.mpr (List.pairwise_map.mpr ?_)
    refine (pairwise_placedSimilarities profiles).imp fun {p q} hb e => ?_
    rcases hb with hb | ⟨-, hb⟩
    · exact absurd (congrArg Prod.fst e) hb.ne
    · exact absurd (congrArg Prod.snd e) hb.ne
  · rw [← Similarity.of?_isSome_iff, Option.isSome_iff_exists]
    simp only [List.mem_map, hmem, Prod.exists, exists_and_right, exists_eq_right,
      mem_placedSimilarities, exists_and_left]
  · obtain ⟨hij, hs⟩ := mem_placedSimilarities.mp (hmem.mp hs)
    obtain ⟨hfirst, hsecond, -⟩ := Similarity.of?_eq_some hs
    rw [Similarity.between_of_ne (lower_ne_of_nodup_keys h hij), hs]
    exact ⟨rfl, hfirst, hsecond⟩
  · have hsorted : ((placedSimilarities profiles).mergeSort le).Pairwise fun p q =>
        le p q ∧ (le q p → Before p.1 q.1) := Sequence.pairwise_mergeSort_ties
      (fun p q r hpq hqr => decide_eq_true
        ((of_decide_eq_true hqr).trans (of_decide_eq_true hpq)))
      (fun p q => by simpa [le] using Int.le_total _ _) (pairwise_placedSimilarities profiles)
    refine hsorted.imp_of_mem fun {p q} hp hq ⟨hpq, hties⟩ => ?_
    rw [hmem] at hp hq
    exact ⟨(hle p hp q hq).mp hpq, fun hqp => hties ((hle q hq p hp).mpr hqp)⟩
  · rw [← map_snd_placedSimilarities, List.map_mergeSort hlisted]

/-! ### The result -/

/-- **The result of a comparison.**  It fails exactly on a repeated address, up to letter case, and
names the first repetition; in particular no contract meets itself, and every name that two
contracts share is found.  Otherwise fewer than two contracts are not comparable, and the
similarities of more are a ranking of their pairs, the relationships those of all pairs in order. -/
theorem ofProfiles_result (threshold : Binary64) (profiles : List Profile) (failed : List String)
    (network : Option String) :
    (∀ e, ofProfiles threshold profiles failed network = .error e ↔
      ∃ p, FirstRepetition profiles p ∧ e = .duplicateContract p.address) ∧
    ((∃ p, FirstRepetition profiles p) ↔ ¬ (keys profiles).Nodup) ∧
    (∀ a b : Profile, ∀ s ∈ Similarity.common a b, (Similarity.nameIn? a s).isSome = true) ∧
    ((keys profiles).Nodup → ∃ c, ofProfiles threshold profiles failed network = .ok c ∧
      c.profiles = profiles ∧ c.failed = failed ∧ c.network = network ∧
      (profiles.length < 2 →
        c.status = .notComparable ∧ c.similarities = [] ∧ c.relationships = []) ∧
      (2 ≤ profiles.length → c.status = .compared ∧
        (∃ ranked, Ranking profiles ranked ∧ c.similarities = ranked.map Prod.snd) ∧
        c.relationships = (indexPairs profiles.length).filterMap fun ij =>
          Relationship.detect? threshold profiles[ij.1] profiles[ij.2]
            (Similarity.of? profiles[ij.1] profiles[ij.2]))) := by
  refine ⟨fun e => ofProfiles_eq_error_iff, exists_firstRepetition_iff,
    fun a b s hs => Similarity.isSome_nameIn? (Similarity.mem_common.mp hs).1, fun h => ?_⟩
  refine ⟨_, ofProfiles_of_nodup h, ?_⟩
  by_cases hlen : profiles.length < 2
  · rw [outcome, if_pos hlen]
    exact ⟨rfl, rfl, rfl, fun _ => ⟨rfl, rfl, rfl⟩, fun h2 => absurd hlen (Nat.not_lt.mpr h2)⟩
  · rw [outcome, if_neg hlen]
    obtain ⟨ranked, hr, heq⟩ := exists_ranking h
    refine ⟨rfl, rfl, rfl, fun h2 => absurd h2 hlen, fun _ => ⟨rfl, ⟨ranked, hr, heq⟩, ?_⟩⟩
    show (pairs profiles).filterMap _ = _
    rw [pairs_eq_map_indexPairs, List.filterMap_map]
    rfl

/-- Three contracts, the last two without a function: of the three pairs two have a similarity,
and both are 0. -/
def threeProfiles : List Profile :=
  [{ address := "0xAb", name := none,
     patterns := [⟨"0xa9059cbb", "transfer(address,uint256)", .erc20, 0, none⟩] },
   { address := "0xac", name := none },
   { address := "0xAd", name := none }]

theorem ofProfiles_threeProfiles :
    ofProfiles 80 threeProfiles [] none = .ok (outcome 80 threeProfiles [] none) :=
  ofProfiles_of_nodup (by decide)

theorem ofProfiles_result_threeProfiles : (keys threeProfiles).Nodup ∧
    ∃ c, ofProfiles 80 threeProfiles [] none = .ok c ∧ c.status = .compared ∧
      ∃ ranked, Ranking threeProfiles ranked ∧ c.similarities = ranked.map Prod.snd := by
  have h : (keys threeProfiles).Nodup := by decide +kernel
  obtain ⟨-, -, -, hok⟩ := ofProfiles_result 80 threeProfiles [] none
  obtain ⟨c, hc, -, -, -, -, hcompared⟩ := hok h
  obtain ⟨hstatus, hranked, -⟩ := hcompared (by decide)
  exact ⟨h, c, hc, hstatus, hranked⟩

end ContractSurvey.Comparison
