import ContractSurvey.Comparison.Insight
import ContractSurvey.Proofs.Comparison.Components

/-!
# Proofs — Comparison — Threshold

Clustering at a threshold against filtering at it.  A filtered comparison keeps a similarity if it
is at least the threshold, and the families pass over one if it is below.  Between numbers one is
the contrary of the other; with NaN neither holds, so the families join what the filter drops.

* `families_eq_iff`: two comparisons of the same contracts have the same families exactly if their
  similarities relate the same places.  Nothing is asked of the contracts: those of a family are the
  last ones of their addresses (`placeOf?_of_root_eq`), so they tell their places even where an
  address comes twice.
* `families_restrict`: when filtering first changes no family, for any comparison and for one that
  was made of profiles.
-/

namespace ContractSurvey.Comparison

open DisjointSet (Related)

variable {c d : Comparison} {threshold : Binary64} {i j : Nat} {p q : Profile}

/-! ### Families and places -/

/-- The contracts whose places have this root. -/
def members (c : Comparison) (threshold : Binary64) (root : Nat) : List Profile :=
  (c.profiles.zipIdx.filter (c.rootAt threshold · = root)).map Prod.fst

theorem mem_members {root : Nat} :
    p ∈ c.members threshold root ↔
      ∃ i, c.profiles[i]? = some p ∧ (c.groups threshold).root i = root := by
  simp only [members, List.mem_map, List.mem_filter, decide_eq_true_eq]
  constructor
  · rintro ⟨⟨p, i⟩, ⟨hpi, hroot⟩, rfl⟩
    exact ⟨i, List.mem_zipIdx_iff_getElem?.mp hpi, hroot⟩
  · rintro ⟨i, hi, hroot⟩
    exact ⟨(p, i), ⟨List.mem_zipIdx_iff_getElem?.mpr hi, hroot⟩, rfl⟩

theorem mem_families {f : List Profile} :
    f ∈ c.families threshold ↔ 1 < f.length ∧
      ∃ i < c.profiles.length, f = c.members threshold ((c.groups threshold).root i) := by
  rw [families_eq_places, List.mem_filter, decide_eq_true_eq, and_comm, List.mem_map]
  refine and_congr_right fun _ => ⟨?_, ?_⟩
  · rintro ⟨root, hroot, rfl⟩
    obtain ⟨⟨p, i⟩, hpi, rfl⟩ := List.mem_map.mp (Sequence.mem_distinct.mp hroot)
    have hi := List.mem_zipIdx_iff_getElem?.mp hpi
    exact ⟨i, (List.getElem?_eq_some_iff.mp hi).1, rfl⟩
  · rintro ⟨i, hi, rfl⟩
    refine ⟨_, Sequence.mem_distinct.mpr (List.mem_map.mpr ⟨(c.profiles[i], i), ?_, rfl⟩), rfl⟩
    exact List.mem_zipIdx_iff_getElem?.mpr (List.getElem?_eq_getElem hi)

theorem root_eq_iff (hi : i < c.profiles.length) (hj : j < c.profiles.length) :
    (c.groups threshold).root i = (c.groups threshold).root j ↔
      Related (c.calls threshold) i j :=
  (c.represents_groups threshold).root_eq_iff hi hj

theorem joined_calls_iff :
    DisjointSet.Joined (c.calls threshold) i j ↔
      ∃ s ∈ c.similarities, ¬ s.percent < threshold ∧ c.placesOf? s = some (i, j) := by
  rw [DisjointSet.Joined, mem_calls]
  refine exists_congr fun s => and_congr_right fun _ => and_congr_right fun _ => ⟨?_, ?_⟩
  · rintro ⟨i', j', hij, hcall⟩
    obtain ⟨hi, hj⟩ := DisjointSet.Call.union.inj hcall
    rw [hij, Int.ofNat.inj hi, Int.ofNat.inj hj]
  · exact fun hij => ⟨i, j, hij, rfl⟩

/-- A union is between the places that two addresses have. -/
theorem placeOf?_of_joined (hp : c.profiles[i]? = some p)
    (h : ∃ k, DisjointSet.Joined (c.calls threshold) i k ∨
      DisjointSet.Joined (c.calls threshold) k i) :
    c.placeOf? p.address = some i := by
  have hplace {a : String} (ha : c.placeOf? a = some i) : c.placeOf? p.address = some i := by
    obtain ⟨p', hp', rfl⟩ := address_of_placeOf? ha
    rw [hp] at hp'
    rwa [Option.some.inj hp']
  obtain ⟨k, h | h⟩ := h
  · obtain ⟨s, -, -, hik⟩ := joined_calls_iff.mp h
    exact hplace (placesOf?_eq_some_iff.mp hik).1
  · obtain ⟨s, -, -, hki⟩ := joined_calls_iff.mp h
    exact hplace (placesOf?_eq_some_iff.mp hki).2

/-- A contract whose place has its root in common with another place is the last one of its
address. -/
theorem placeOf?_of_root_eq (hp : c.profiles[i]? = some p) (hj : j < c.profiles.length)
    (hne : i ≠ j) (hroot : (c.groups threshold).root i = (c.groups threshold).root j) :
    c.placeOf? p.address = some i := by
  have hrelated := (root_eq_iff (List.getElem?_eq_some_iff.mp hp).1 hj).mp hroot
  exact placeOf?_of_joined hp (hrelated.eq_or_joined.resolve_left hne)

theorem one_lt_length_of_mem {α : Type} {xs : List α} {a b : α} (ha : a ∈ xs) (hb : b ∈ xs)
    (hne : a ≠ b) : 1 < xs.length := by
  match xs with
  | [] => cases ha
  | [x] => exact absurd ((List.mem_singleton.mp ha).trans (List.mem_singleton.mp hb).symm) hne
  | _ :: _ :: _ => exact Nat.one_lt_succ_succ _

/-- Two contracts of one family are at places that are related. -/
theorem exists_related_of_mem_families {f : List Profile} (hf : f ∈ c.families threshold)
    (hp : p ∈ f) (hq : q ∈ f) (hne : p ≠ q) :
    ∃ i j, c.placeOf? p.address = some i ∧ c.placeOf? q.address = some j ∧
      Related (c.calls threshold) i j := by
  obtain ⟨-, k, -, rfl⟩ := mem_families.mp hf
  obtain ⟨i, hpi, hrooti⟩ := mem_members.mp hp
  obtain ⟨j, hqj, hrootj⟩ := mem_members.mp hq
  have hi := (List.getElem?_eq_some_iff.mp hpi).1
  have hj := (List.getElem?_eq_some_iff.mp hqj).1
  have hroot := hrooti.trans hrootj.symm
  have hij : i ≠ j := by
    rintro rfl
    exact hne (Option.some.inj (hpi.symm.trans hqj))
  exact ⟨i, j, placeOf?_of_root_eq hpi hj hij hroot,
    placeOf?_of_root_eq hqj hi hij.symm hroot.symm, (root_eq_iff hi hj).mp hroot⟩

/-- Two places that are related are those of two contracts of one family. -/
theorem exists_family_of_related (hi : i < c.profiles.length) (hj : j < c.profiles.length)
    (hij : i ≠ j) (h : Related (c.calls threshold) i j) :
    ∃ f ∈ c.families threshold, ∃ p ∈ f, ∃ q ∈ f, p ≠ q ∧
      c.placeOf? p.address = some i ∧ c.placeOf? q.address = some j := by
  have hroot := (root_eq_iff hi hj).mpr h
  have hpi := List.getElem?_eq_getElem hi
  have hqj := List.getElem?_eq_getElem hj
  have hplacei := placeOf?_of_root_eq hpi hj hij hroot
  have hplacej := placeOf?_of_root_eq hqj hi hij.symm hroot.symm
  have hne : c.profiles[i] ≠ c.profiles[j] := by
    intro e
    rw [e, hplacej] at hplacei
    exact hij (Option.some.inj hplacei).symm
  have hmemi := mem_members.mpr ⟨i, hpi, hroot⟩
  have hmemj := mem_members.mpr ⟨j, hqj, (rfl : (c.groups threshold).root j = _)⟩
  refine ⟨_, mem_families.mpr ⟨?_, j, hj, rfl⟩, _, hmemi, _, hmemj, hne, hplacei, hplacej⟩
  exact one_lt_length_of_mem hmemi hmemj hne

/-! ### Comparisons of the same contracts -/

section

variable (hp : d.profiles = c.profiles)
include hp

theorem placeOf?_congr (a : String) : d.placeOf? a = c.placeOf? a := by
  rw [placeOf?, placeOf?, hp]

/-- Only which places have one root counts for the families. -/
theorem families_congr
    (h : ∀ i < c.profiles.length, ∀ j < c.profiles.length,
      Related (d.calls threshold) i j ↔ Related (c.calls threshold) i j) :
    d.families threshold = c.families threshold := by
  -- contracts may be equal, but not together with their places
  have hn : c.profiles.zipIdx.Nodup := by
    refine List.Nodup.of_map Prod.snd ?_
    rw [List.zipIdx_map_snd]
    exact List.nodup_range'
  have hlt : ∀ pi ∈ c.profiles.zipIdx, pi.2 < c.profiles.length := fun pi hpi =>
    (List.getElem?_eq_some_iff.mp (List.mem_zipIdx_iff_getElem?.mp hpi)).1
  have hroots : ∀ pi ∈ c.profiles.zipIdx, ∀ qj ∈ c.profiles.zipIdx,
      d.rootAt threshold pi = d.rootAt threshold qj ↔
        c.rootAt threshold pi = c.rootAt threshold qj := by
    intro pi hpi qj hqj
    have hi := hlt pi hpi
    have hj := hlt qj hqj
    rw [rootAt, rootAt, rootAt, rootAt, root_eq_iff hi hj, root_eq_iff (hp ▸ hi) (hp ▸ hj)]
    exact h _ hi _ hj
  have hgroups := congrArg (List.map (List.map Prod.fst)) (Sequence.groups_congr hn hroots)
  rw [List.map_map, List.map_map] at hgroups
  rw [families_eq_places, families_eq_places, hp]
  exact congrArg _ hgroups

/-- The families tell which places are related. -/
theorem related_of_families_subset (h : ∀ f ∈ c.families threshold, f ∈ d.families threshold)
    (hi : i < c.profiles.length) (hj : j < c.profiles.length)
    (hrelated : Related (c.calls threshold) i j) : Related (d.calls threshold) i j := by
  by_cases hij : i = j
  · exact hij ▸ .refl i
  · obtain ⟨f, hf, p, hpf, q, hqf, hne, hpi, hqj⟩ := exists_family_of_related hi hj hij hrelated
    obtain ⟨i', j', hpi', hqj', hrelated'⟩ := exists_related_of_mem_families (h f hf) hpf hqf hne
    -- in both comparisons the places are those of the two addresses
    rw [placeOf?_congr hp, hpi, Option.some.injEq] at hpi'
    rw [placeOf?_congr hp, hqj, Option.some.injEq] at hqj'
    exact hpi' ▸ hqj' ▸ hrelated'

/-- **Comparisons of the same contracts** have the same families exactly if their similarities
relate the same places. -/
theorem families_eq_iff :
    d.families threshold = c.families threshold ↔
      ∀ i < c.profiles.length, ∀ j < c.profiles.length,
        Related (d.calls threshold) i j ↔ Related (c.calls threshold) i j := by
  refine ⟨fun h i hi j hj => ⟨fun hd => ?_, fun hc => ?_⟩, families_congr hp⟩
  · exact related_of_families_subset hp.symm (fun f hf => h ▸ hf) (hp ▸ hi) (hp ▸ hj) hd
  · exact related_of_families_subset hp (fun f hf => h.symm ▸ hf) hi hj hc

end

/-! ### Filtering -/

/-- A similarity of at least the threshold is between the two places. -/
def Tied (c : Comparison) (threshold : Binary64) (i j : Nat) : Prop :=
  ∃ s ∈ c.similarities, threshold ≤ s.percent ∧ c.placesOf? s = some (i, j)

/-- The places hang together by similarities of at least the threshold. -/
def Clustered (c : Comparison) (threshold : Binary64) : Nat → Nat → Prop :=
  Relation.EqvGen (c.Tied threshold)

theorem related_restrict_iff {withRelationships : Bool} :
    Related ((c.restrict threshold withRelationships).calls threshold) i j ↔
      c.Clustered threshold i j := by
  have hjoined : DisjointSet.Joined ((c.restrict threshold withRelationships).calls threshold) =
      c.Tied threshold := by
    funext i j
    refine propext (joined_calls_iff.trans ⟨?_, ?_⟩)
    · rintro ⟨s, hs, -, hij⟩
      obtain ⟨hs, hle⟩ := List.mem_filter.mp hs
      exact ⟨s, hs, of_decide_eq_true hle, hij⟩
    · rintro ⟨s, hs, hle, hij⟩
      exact ⟨s, List.mem_filter.mpr ⟨hs, decide_eq_true hle⟩, Binary64.not_lt_of_le hle, hij⟩
  rw [Related, hjoined, Clustered]

/-- Filtering changes no family exactly if every similarity that is not below the threshold is
between places that hang together anyway. -/
theorem families_eq_restrict_iff {withRelationships : Bool} :
    c.families threshold = (c.restrict threshold withRelationships).families threshold ↔
      ∀ s ∈ c.similarities, ¬ s.percent < threshold →
        ∀ i j, c.placesOf? s = some (i, j) → c.Clustered threshold i j := by
  have hp : c.profiles = (c.restrict threshold withRelationships).profiles := rfl
  rw [families_eq_iff hp]
  simp only [related_restrict_iff]
  constructor
  · intro h s hs hbelow i j hij
    obtain ⟨hi, hj⟩ := lt_length_of_placesOf? hij
    exact (h i hi j hj).mp (.rel _ _ (joined_calls_iff.mpr ⟨s, hs, hbelow, hij⟩))
  · intro h i _ j _
    constructor
    · -- the relation is generated by unions, and each of them is within the closure of ties
      intro hrelated
      have hle : ∀ i j, DisjointSet.Joined (c.calls threshold) i j → c.Clustered threshold i j := by
        intro i j hij
        obtain ⟨s, hs, hbelow, hij⟩ := joined_calls_iff.mp hij
        exact h s hs hbelow i j hij
      exact (Relation.EqvGen.is_equivalence _).eqvGen_iff.mp (Relation.EqvGen.mono hle _ _ hrelated)
    · refine Relation.EqvGen.mono (fun i j hij => ?_) i j
      obtain ⟨s, hs, hle, hij⟩ := hij
      exact joined_calls_iff.mpr ⟨s, hs, Binary64.not_lt_of_le hle, hij⟩

/-- Between numbers filtering changes no family. -/
theorem families_eq_restrict_of_numbers (ht : threshold.isNaN = false)
    (hs : ∀ s ∈ c.similarities, s.percent.isNaN = false) {withRelationships : Bool} :
    c.families threshold = (c.restrict threshold withRelationships).families threshold := by
  refine families_eq_restrict_iff.mpr fun s hmem hbelow i j hij => ?_
  exact .rel _ _ ⟨s, hmem, (Binary64.not_lt_iff (hs s hmem) ht).mp hbelow, hij⟩

/-- At the threshold NaN no two places hang together. -/
theorem eq_of_clustered_nan (h : c.Clustered .nan i j) : i = j := by
  have hnone : ∀ a b, c.Tied .nan a b → id a = id b := by
    rintro a b ⟨s, -, hle, -⟩
    cases hle.1
  exact congrArg (Quot.lift id hnone) (Quot.eqvGen_sound h)

/-- A similarity found is between two different places. -/
theorem exists_placesOf?_ne {similar : Binary64} {profiles : List Profile} {failed : List String}
    {network : Option String} (h : ofProfiles similar profiles failed network = .ok c)
    {s : Similarity} (hs : s ∈ c.similarities) :
    ∃ i j, c.placesOf? s = some (i, j) ∧ i ≠ j := by
  obtain ⟨hn, rfl⟩ := ofProfiles_eq_ok_iff.mp h
  rw [outcome_similarities, List.mem_mergeSort] at hs
  obtain ⟨pq, hpq, hsim⟩ := List.mem_filterMap.mp hs
  obtain ⟨hfirst, hsecond, -⟩ := Similarity.of?_eq_some hsim
  have hne : Text.lower pq.1.address ≠ Text.lower pq.2.address :=
    forall_mem_pairs.mpr (List.pairwise_map.mp hn) pq hpq
  have hprofiles : (outcome similar profiles failed network).profiles = profiles :=
    outcome_profiles
  obtain ⟨hp, hq⟩ := mem_of_mem_pairs hpq
  obtain ⟨i, hi⟩ := placeOf?_isSome (hprofiles.symm ▸ hp)
  obtain ⟨j, hj⟩ := placeOf?_isSome (hprofiles.symm ▸ hq)
  refine ⟨i, j, placesOf?_eq_some_iff.mpr ⟨hfirst ▸ hi, hsecond ▸ hj⟩, ?_⟩
  rintro rfl
  obtain ⟨p, hp, hpa⟩ := address_of_placeOf? hi
  obtain ⟨q, hq, hqa⟩ := address_of_placeOf? hj
  rw [hp, Option.some.injEq] at hq
  exact hne (by rw [← hpa, ← hqa, hq])

/-- **Filtering before clustering**, for any comparison and any threshold.  The families stay the
same exactly if every similarity that is not below the threshold is between two places that hang
together by similarities of at least the threshold, and in the filtered comparison two contracts of
one family always do.  For a comparison made of profiles this leaves NaN as the only threshold at
which families change, and there they do as soon as there is a similarity. -/
theorem families_restrict (c : Comparison) (threshold : Binary64) (withRelationships : Bool) :
    (c.families threshold = (c.restrict threshold withRelationships).families threshold ↔
      ∀ s ∈ c.similarities, ¬ s.percent < threshold →
        ∀ i j, c.placesOf? s = some (i, j) → c.Clustered threshold i j) ∧
    (∀ f ∈ (c.restrict threshold withRelationships).families threshold,
      ∀ p ∈ f, ∀ q ∈ f, p ≠ q → ∃ i j, c.placeOf? p.address = some i ∧
        c.placeOf? q.address = some j ∧ c.Clustered threshold i j) ∧
    ∀ similar profiles failed network, ofProfiles similar profiles failed network = .ok c →
      (c.families threshold = (c.restrict threshold withRelationships).families threshold ↔
        threshold.isNaN = false ∨ c.similarities = []) := by
  refine ⟨families_eq_restrict_iff, fun f hf p hp q hq hne => ?_,
    fun similar profiles failed network hmade => ?_⟩
  · obtain ⟨i, j, hi, hj, hrelated⟩ := exists_related_of_mem_families hf hp hq hne
    exact ⟨i, j, hi, hj, related_restrict_iff.mp hrelated⟩
  · constructor
    · intro heq
      by_contra hneither
      obtain ⟨hnan, hsome⟩ := not_or.mp hneither
      obtain rfl := Binary64.eq_nan_of_isNaN (Bool.not_eq_false _ ▸ hnan)
      obtain ⟨s, hs⟩ := List.exists_mem_of_ne_nil _ hsome
      obtain ⟨i, j, hij, hne⟩ := exists_placesOf?_ne hmade hs
      have hclustered := families_eq_restrict_iff.mp heq s hs (Binary64.not_lt_nan _) i j hij
      exact hne (eq_of_clustered_nan hclustered)
    · rintro (hnumber | hnone)
      · refine families_eq_restrict_of_numbers hnumber fun s hs => ?_
        obtain ⟨-, rfl⟩ := ofProfiles_eq_ok_iff.mp hmade
        exact isNaN_of_mem_outcome hs
      · refine families_eq_restrict_iff.mpr fun s hs => ?_
        rw [hnone] at hs
        cases hs

/-- Two contracts without a common function. -/
def strangers : List Profile :=
  [{ address := "0xa", name := none,
     patterns := [⟨"0xa9059cbb", "transfer(address,uint256)", .erc20, 0, none⟩] },
   { address := "0xb", name := none,
     patterns := [⟨"0x095ea7b3", "approve(address,uint256)", .erc20, 0, none⟩] }]

/-- At the threshold NaN the two are one family, and after the filter there is none. -/
theorem families_ne_restrict_nan :
    ∃ c, ofProfiles 80 strangers [] none = .ok c ∧ c.similarities.map (·.percent) = [0] ∧
      (c.families .nan).map (·.map (·.address)) = [["0xa", "0xb"]] ∧
      (c.restrict .nan true).families .nan = [] := by
  have hn : (keys strangers).Nodup := by decide +kernel
  refine ⟨_, ofProfiles_of_nodup hn, by decide +kernel, by decide +kernel, ?_⟩
  exact List.isEmpty_iff.mp (by decide +kernel)

end ContractSurvey.Comparison
