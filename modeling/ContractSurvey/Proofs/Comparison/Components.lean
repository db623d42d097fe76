import ContractSurvey.Comparison.Family
import ContractSurvey.Proofs.Comparison.Result
import ContractSurvey.Proofs.DisjointSet.Calls
import ContractSurvey.Proofs.Sequence.Order
import Mathlib.Data.List.Nodup

/-!
# Proofs — Comparison — Components

The families of a comparison are the connected components of at least two contracts in the graph
whose edges are the recorded similarities that join.

* `related_iff_connected`: the unions that the similarities call for relate two places exactly if
  their contracts are connected.
* `foldl_enter`: looking for the roots while grouping, which compresses the forest, groups as the
  roots before it do.
* `families_eq_components`: for contracts of different addresses the families are the components,
  told by their first members.
-/

namespace ContractSurvey.Comparison

open DisjointSet (Call Related)

/-! ### The graph -/

/-- A recorded similarity that joins leads from the first contract to the second. -/
def Linked (c : Comparison) (joins : Similarity → Prop) (p q : Profile) : Prop :=
  p ∈ c.profiles ∧ q ∈ c.profiles ∧
    ∃ s ∈ c.similarities, joins s ∧ s.first = p.address ∧ s.second = q.address

/-- A path of similarities that join, in either direction, leads from one contract to the other. -/
def Connected (c : Comparison) (joins : Similarity → Prop) : Profile → Profile → Prop :=
  Relation.EqvGen (c.Linked joins)

open Classical in
/-- The contracts that are connected with one, in their order. -/
noncomputable def component (c : Comparison) (joins : Similarity → Prop) (p : Profile) :
    List Profile :=
  c.profiles.filter fun q => c.Connected joins q p

open Classical in
/-- The contracts that come first in their component. -/
noncomputable def firsts (c : Comparison) (joins : Similarity → Prop) : List Profile :=
  c.profiles.filter fun p => (c.component joins p).head? = some p

/-- The components of at least two contracts, in the order of their first contracts. -/
noncomputable def components (c : Comparison) (joins : Similarity → Prop) : List (List Profile) :=
  ((c.firsts joins).map (c.component joins)).filter fun members => 1 < members.length

/-! ### Places -/

/-- The addresses of the contracts are pairwise different. -/
def DistinctAddresses (c : Comparison) : Prop := (c.profiles.map (·.address)).Nodup

theorem distinctAddresses_of_nodup_keys {c : Comparison} (h : (keys c.profiles).Nodup) :
    c.DistinctAddresses := by
  have hk : keys c.profiles = (c.profiles.map (·.address)).map Text.lower := by
    simp [keys, Function.comp_def]
  exact List.Nodup.of_map _ (hk ▸ h)

theorem address_of_placeOf? {c : Comparison} {a : String} {i : Nat} (h : c.placeOf? a = some i) :
    ∃ p, c.profiles[i]? = some p ∧ p.address = a := by
  obtain ⟨k, hk, rfl⟩ := Option.map_eq_some_iff.mp h
  obtain ⟨hlt, hp, -⟩ := List.findIdx?_eq_some_iff_getElem.mp hk
  rw [List.length_reverse] at hlt
  refine ⟨_, List.getElem?_eq_getElem (by omega), ?_⟩
  simpa [List.getElem_reverse] using hp

theorem placeOf?_isSome {c : Comparison} {p : Profile} (hp : p ∈ c.profiles) :
    ∃ i, c.placeOf? p.address = some i := by
  rw [← Option.isSome_iff_exists, placeOf?, Option.isSome_map, List.findIdx?_isSome]
  simpa using ⟨p, hp, rfl⟩

theorem DistinctAddresses.place_eq {c : Comparison} (hc : c.DistinctAddresses) {i j : Nat}
    {p q : Profile} (hi : c.profiles[i]? = some p) (hj : c.profiles[j]? = some q)
    (e : p.address = q.address) : i = j := by
  obtain ⟨hi', rfl⟩ := List.getElem?_eq_some_iff.mp hi
  obtain ⟨hj', rfl⟩ := List.getElem?_eq_some_iff.mp hj
  rw [DistinctAddresses, List.nodup_iff_injective_getElem] at hc
  have h := @hc ⟨i, by simpa using hi'⟩ ⟨j, by simpa using hj'⟩ (by simpa using e)
  exact congrArg Fin.val h

/-- The place of an address is the place of its contract. -/
theorem DistinctAddresses.placeOf? {c : Comparison} (hc : c.DistinctAddresses) {p : Profile}
    {i : Nat} (hi : c.profiles[i]? = some p) : c.placeOf? p.address = some i := by
  obtain ⟨k, hk⟩ := placeOf?_isSome (List.mem_of_getElem? hi)
  obtain ⟨q, hq, e⟩ := address_of_placeOf? hk
  rw [hk, hc.place_eq hq hi e]

/-! ### The unions that the similarities call for -/

/-- The union that a similarity calls for, if it is not below the threshold. -/
def callOf? (c : Comparison) (threshold : Binary64) (s : Similarity) : Option Call :=
  if s.percent < threshold then none
  else (c.placesOf? s).map fun ab => .union ab.1 ab.2

def calls (c : Comparison) (threshold : Binary64) : List Call :=
  c.similarities.filterMap (c.callOf? threshold)

theorem groups_eq_run (c : Comparison) (threshold : Binary64) :
    c.groups threshold = DisjointSet.run c.profiles.length (c.calls threshold) := by
  rw [groups, DisjointSet.run, calls, List.foldl_filterMap]
  congr 1
  funext d s
  by_cases h : s.percent < threshold
  · simp [join, callOf?, h]
  · cases hp : c.placesOf? s with
    | none => simp [join, callOf?, h, hp]
    | some ab => simp [join, callOf?, h, hp, Call.after]

theorem placesOf?_eq_some_iff {c : Comparison} {s : Similarity} {i j : Nat} :
    c.placesOf? s = some (i, j) ↔ c.placeOf? s.first = some i ∧ c.placeOf? s.second = some j := by
  cases hfirst : c.placeOf? s.first with
  | none => simp [placesOf?, hfirst]
  | some a =>
      cases hsecond : c.placeOf? s.second with
      | none => simp [placesOf?, hfirst, hsecond]
      | some b => simp [placesOf?, hfirst, hsecond]

theorem mem_calls {c : Comparison} {threshold : Binary64} {call : Call} :
    call ∈ c.calls threshold ↔ ∃ s ∈ c.similarities, ¬ s.percent < threshold ∧
      ∃ i j, c.placesOf? s = some (i, j) ∧ .union i j = call := by
  simp only [calls, List.mem_filterMap, callOf?]
  refine exists_congr fun s => and_congr_right fun _ => ?_
  by_cases h : s.percent < threshold <;> simp [h]

theorem lt_length_of_placesOf? {c : Comparison} {s : Similarity} {i j : Nat}
    (h : c.placesOf? s = some (i, j)) : i < c.profiles.length ∧ j < c.profiles.length := by
  obtain ⟨hi, hj⟩ := placesOf?_eq_some_iff.mp h
  obtain ⟨p, hp, -⟩ := address_of_placeOf? hi
  obtain ⟨q, hq, -⟩ := address_of_placeOf? hj
  exact ⟨(List.getElem?_eq_some_iff.mp hp).1, (List.getElem?_eq_some_iff.mp hq).1⟩

theorem within_of_mem_calls {c : Comparison} {threshold : Binary64} :
    ∀ call ∈ c.calls threshold, call.Within c.profiles.length := by
  intro call h
  obtain ⟨s, -, -, i, j, hij, rfl⟩ := mem_calls.mp h
  obtain ⟨hi, hj⟩ := lt_length_of_placesOf? hij
  exact ⟨⟨by omega, by omega⟩, by omega, by omega⟩

theorem represents_groups (c : Comparison) (threshold : Binary64) :
    DisjointSet.Represents c.profiles.length (c.calls threshold) (c.groups threshold) :=
  groups_eq_run c threshold ▸ DisjointSet.represents_run within_of_mem_calls

/-- **The unions relate what the graph connects.** -/
theorem related_iff_connected {c : Comparison} (hc : c.DistinctAddresses) {threshold : Binary64}
    {i j : Nat} {p q : Profile} (hi : c.profiles[i]? = some p) (hj : c.profiles[j]? = some q) :
    Related (c.calls threshold) i j ↔ c.Connected (¬ ·.percent < threshold) p q := by
  constructor
  · intro h
    -- the class of the contract at a place is the same for related places
    let class? (k : Nat) : Option (Quot (c.Linked (¬ ·.percent < threshold))) :=
      (c.profiles[k]?).map (Quot.mk _)
    have hclass : ∀ a b, DisjointSet.Joined (c.calls threshold) a b → class? a = class? b := by
      intro a b hab
      obtain ⟨s, hs, hjoins, a', b', hplaces, e⟩ := mem_calls.mp hab
      simp only [Call.union.injEq, Int.natCast_inj] at e
      obtain ⟨rfl, rfl⟩ := e
      obtain ⟨ha, hb⟩ := placesOf?_eq_some_iff.mp hplaces
      obtain ⟨p, hp, hpa⟩ := address_of_placeOf? ha
      obtain ⟨q, hq, hqa⟩ := address_of_placeOf? hb
      simp only [class?, hp, hq, Option.map_some, Option.some.injEq]
      exact Quot.sound ⟨List.mem_of_getElem? hp, List.mem_of_getElem? hq, s, hs, hjoins,
        hpa.symm, hqa.symm⟩
    have h := h.apply_eq hclass
    simp only [class?, hi, hj, Option.map_some, Option.some.injEq] at h
    exact Quot.eqvGen_exact h
  · intro h
    -- the class of a contract's place is the same for connected contracts
    let class? (p : Profile) : Option (Quot (DisjointSet.Joined (c.calls threshold))) :=
      (c.placeOf? p.address).map (Quot.mk _)
    have hclass : ∀ p q, c.Linked (¬ ·.percent < threshold) p q → class? p = class? q := by
      rintro p q ⟨hp, hq, s, hs, hjoins, hfirst, hsecond⟩
      obtain ⟨a, ha⟩ := placeOf?_isSome hp
      obtain ⟨b, hb⟩ := placeOf?_isSome hq
      simp only [class?, ha, hb, Option.map_some, Option.some.injEq]
      exact Quot.sound (mem_calls.mpr ⟨s, hs, hjoins, a, b,
        placesOf?_eq_some_iff.mpr ⟨hfirst ▸ ha, hsecond ▸ hb⟩, rfl⟩)
    have h : class? p = class? q := congrArg (Quot.lift class? hclass) (Quot.eqvGen_sound h)
    simp only [class?, hc.placeOf? hi, hc.placeOf? hj, Option.map_some, Option.some.injEq] at h
    exact Quot.eqvGen_exact h

/-! ### The grouping -/

/-- Looking for roots on the way changes none of them. -/
theorem foldl_enter {key : Profile × Nat → Nat} {d : DisjointSet} (hd : d.WellFormed)
    {placed : List (Profile × Nat)}
    (h : ∀ pi ∈ placed, pi.2 < d.size ∧ d.root pi.2 = key pi)
    (l : Ledger Nat (List Profile)) :
    (placed.foldl enter (d, l)).2 = placed.foldl
      (fun l pi => Ledger.alter (key pi) (fun members => members.getD [] ++ [pi.1]) l) l := by
  induction placed generalizing d l with
  | nil => rfl
  | cons pi placed ih =>
      obtain ⟨p, i⟩ := pi
      rw [List.forall_mem_cons] at h
      obtain ⟨⟨hi, hkey⟩, hrest⟩ := h
      have hd' := DisjointSet.wellFormed_compressed hd hi
      rw [List.foldl_cons, enter, ih hd', hkey, List.foldl_cons]
      intro qj hqj
      obtain ⟨hj, hroot⟩ := hrest qj hqj
      rw [DisjointSet.size_compressed, DisjointSet.root_compressed hd hi hj]
      exact ⟨hj, hroot⟩

/-- The root of a contract's place. -/
def rootAt (c : Comparison) (threshold : Binary64) (placed : Profile × Nat) : Nat :=
  (c.groups threshold).root placed.2

/-- The families are the groups of the contracts at their places by the roots of these. -/
theorem families_eq_places (c : Comparison) (threshold : Binary64) :
    c.families threshold =
      ((Sequence.distinct (c.profiles.zipIdx.map (c.rootAt threshold))).map fun k =>
        (c.profiles.zipIdx.filter (c.rootAt threshold · = k)).map Prod.fst).filter
          fun members => 1 < members.length := by
  have hr := c.represents_groups threshold
  have hplaced : ∀ pi ∈ c.profiles.zipIdx, pi.2 < (c.groups threshold).size ∧
      (c.groups threshold).root pi.2 = c.rootAt threshold pi := by
    intro pi hpi
    rw [List.mem_zipIdx_iff_getElem?] at hpi
    rw [hr.size_eq]
    exact ⟨(List.getElem?_eq_some_iff.mp hpi).1, rfl⟩
  show List.filter _ (((c.profiles.zipIdx.foldl enter (c.groups threshold, [])).2).map _) = _
  rw [foldl_enter hr.wellFormed hplaced, Sequence.foldl_alter_append, List.map_map]
  rfl

/-- The root under which a contract is entered, if its address is its own. -/
def rootOf (c : Comparison) (threshold : Binary64) (p : Profile) : Nat :=
  (c.groups threshold).root ((c.placeOf? p.address).getD 0)

theorem families_eq_groups {c : Comparison} (hc : c.DistinctAddresses) (threshold : Binary64) :
    c.families threshold =
      ((Sequence.distinct (c.profiles.map (c.rootOf threshold))).map fun k =>
        c.profiles.filter (c.rootOf threshold · = k)).filter fun members => 1 < members.length := by
  have hroot : ∀ pi ∈ c.profiles.zipIdx, c.rootAt threshold pi = c.rootOf threshold pi.1 := by
    intro pi hpi
    rw [rootAt, rootOf, hc.placeOf? (List.mem_zipIdx_iff_getElem?.mp hpi), Option.getD_some]
  have hkeys : c.profiles.zipIdx.map (c.rootAt threshold) =
      c.profiles.map (c.rootOf threshold) := by
    conv_rhs => rw [← List.zipIdx_map_fst 0 c.profiles, List.map_map]
    exact List.map_congr_left hroot
  have hmembers (k : Nat) :
      (c.profiles.zipIdx.filter (c.rootAt threshold · = k)).map Prod.fst =
        c.profiles.filter (c.rootOf threshold · = k) := by
    conv_rhs => rw [← List.zipIdx_map_fst 0 c.profiles, List.filter_map]
    exact congrArg _ (List.filter_congr fun pi hpi => by rw [hroot pi hpi]; rfl)
  rw [families_eq_places, hkeys]
  simp only [hmembers]

theorem rootOf_eq_iff {c : Comparison} (hc : c.DistinctAddresses) {threshold : Binary64}
    {p q : Profile} (hp : p ∈ c.profiles) (hq : q ∈ c.profiles) :
    c.rootOf threshold p = c.rootOf threshold q ↔ c.Connected (¬ ·.percent < threshold) p q := by
  obtain ⟨i, hi⟩ := List.mem_iff_getElem?.mp hp
  obtain ⟨j, hj⟩ := List.mem_iff_getElem?.mp hq
  rw [rootOf, rootOf, hc.placeOf? hi, hc.placeOf? hj, Option.getD_some, Option.getD_some,
    (c.represents_groups threshold).root_eq_iff (List.getElem?_eq_some_iff.mp hi).1
      (List.getElem?_eq_some_iff.mp hj).1, related_iff_connected hc hi hj]

/-- **The families are the components**, for contracts of different addresses. -/
theorem families_eq_components {c : Comparison} (hc : c.DistinctAddresses) (threshold : Binary64) :
    c.families threshold = c.components (¬ ·.percent < threshold) := by
  have hcomponent : ∀ p ∈ c.profiles, c.component (¬ ·.percent < threshold) p =
      c.profiles.filter (c.rootOf threshold · = c.rootOf threshold p) := by
    intro p hp
    refine List.filter_congr fun q hq => ?_
    rw [decide_eq_decide, rootOf_eq_iff hc hq hp]
  rw [families_eq_groups hc, Sequence.groups_eq _ (List.Nodup.of_map _ hc), components, firsts]
  congr 1
  rw [List.map_congr_left fun p hp => (hcomponent p (List.mem_of_mem_filter hp)).symm]
  congr 1
  refine List.filter_congr fun p hp => ?_
  rw [hcomponent p hp]

/-! ### What the components are -/

theorem mem_component {c : Comparison} {joins : Similarity → Prop} {p q : Profile} :
    q ∈ c.component joins p ↔ q ∈ c.profiles ∧ c.Connected joins q p := by
  simp [component]

theorem component_eq_of_connected {c : Comparison} {joins : Similarity → Prop} {p q : Profile}
    (h : c.Connected joins p q) : c.component joins p = c.component joins q := by
  refine List.filter_congr fun r _ => decide_eq_decide.mpr ⟨fun hr => ?_, fun hr => ?_⟩
  · exact .trans _ _ _ hr h
  · exact .trans _ _ _ hr (.symm _ _ h)

theorem mem_firsts {c : Comparison} {joins : Similarity → Prop} {p : Profile} :
    p ∈ c.firsts joins ↔ p ∈ c.profiles ∧ (c.component joins p).head? = some p := by
  simp [firsts]

theorem components_congr {c d : Comparison} {joins joins' : Similarity → Prop}
    (hp : d.profiles = c.profiles) (h : d.Linked joins = c.Linked joins') :
    d.components joins = c.components joins' := by
  have hconnected : d.Connected joins = c.Connected joins' := by rw [Connected, Connected, h]
  have hcomponent : d.component joins = c.component joins' := by
    funext p
    rw [component, component, hconnected, hp]
  rw [components, components, firsts, firsts, hcomponent, hp]

/-- The component of any of its contracts is listed, if it has another one. -/
theorem component_mem_components {c : Comparison} {joins : Similarity → Prop} {p : Profile}
    (h : 1 < (c.component joins p).length) : c.component joins p ∈ c.components joins := by
  have hne : c.component joins p ≠ [] := List.ne_nil_of_length_pos (by omega)
  have hhead := mem_component.mp (List.head_mem hne)
  have heq := component_eq_of_connected hhead.2
  refine List.mem_filter.mpr ⟨List.mem_map.mpr ⟨_, mem_firsts.mpr ⟨hhead.1, ?_⟩, heq⟩, ?_⟩
  · rw [heq, List.head?_eq_some_head hne]
  · exact decide_eq_true h

/-- Different components have no contract in common. -/
theorem pairwise_disjoint_components {c : Comparison} (hn : c.profiles.Nodup)
    (joins : Similarity → Prop) : (c.components joins).Pairwise List.Disjoint := by
  refine List.Pairwise.filter _ (List.pairwise_map.mpr ?_)
  refine (hn.filter _).imp_of_mem fun {p q} hp hq hne r hrp hrq => hne ?_
  have hpq : c.Connected joins p q :=
    .trans _ _ _ (.symm _ _ (mem_component.mp hrp).2) (mem_component.mp hrq).2
  have hhead := (mem_firsts.mp hp).2
  rw [component_eq_of_connected hpq, (mem_firsts.mp hq).2] at hhead
  exact (Option.some.inj hhead).symm

theorem sublist_of_mem_components {c : Comparison} {joins : Similarity → Prop} {f : List Profile}
    (hf : f ∈ c.components joins) : f.Sublist c.profiles := by
  obtain ⟨p, -, rfl⟩ := List.mem_map.mp (List.mem_of_mem_filter hf)
  exact List.filter_sublist

/-- The first members of the components keep the order of the contracts. -/
theorem heads_sublist_components (c : Comparison) (joins : Similarity → Prop) :
    ((c.components joins).filterMap List.head?).Sublist c.profiles := by
  have hheads : ((c.firsts joins).map (c.component joins)).filterMap List.head? =
      c.firsts joins := by
    have hhead : ∀ p ∈ c.firsts joins, (List.head? ∘ c.component joins) p = some p :=
      fun p hp => (mem_firsts.mp hp).2
    rw [List.filterMap_map, List.filterMap_congr hhead]
    exact List.filterMap_some
  have h := (List.filter_sublist (p := fun members => decide (1 < members.length))
    (l := (c.firsts joins).map (c.component joins))).filterMap List.head?
  rw [hheads] at h
  exact h.trans List.filter_sublist

/-- **The families of a comparison**, in whatever order its similarities are kept: they are the
components of at least two contracts in the graph of the pairs whose similarity is at least the
threshold.  No contract is in two of them, the members keep the order of the contracts, and so do
the first members. -/
theorem families_of_ofProfiles {similar : Binary64} {profiles : List Profile}
    {failed : List String} {network : Option String} {c : Comparison}
    (h : ofProfiles similar profiles failed network = .ok c) {threshold : Binary64}
    (ht : threshold.isNaN = false) {similarities : List Similarity}
    (hs : similarities.Perm c.similarities) :
    { c with similarities }.families threshold = c.components (threshold ≤ ·.percent) ∧
      ({ c with similarities }.families threshold).Pairwise List.Disjoint ∧
      (∀ f ∈ { c with similarities }.families threshold, f.Sublist c.profiles) ∧
      (({ c with similarities }.families threshold).filterMap List.head?).Sublist c.profiles := by
  obtain ⟨hn, hout⟩ := ofProfiles_eq_ok_iff.mp h
  have hc : c.DistinctAddresses := by
    refine distinctAddresses_of_nodup_keys ?_
    rwa [hout, outcome_profiles]
  have hlinked : Linked { c with similarities } (¬ ·.percent < threshold) =
      c.Linked (threshold ≤ ·.percent) := by
    funext p q
    refine propext (and_congr_right fun _ => and_congr_right fun _ => exists_congr fun s => ?_)
    rw [hs.mem_iff]
    refine and_congr_right fun hs => and_congr_left fun _ => ?_
    exact Binary64.not_lt_iff (isNaN_of_mem_outcome (hout ▸ hs)) ht
  have hfamilies : { c with similarities }.families threshold =
      c.components (threshold ≤ ·.percent) := by
    have hc' : DistinctAddresses { c with similarities } := hc
    exact (families_eq_components hc' threshold).trans (components_congr rfl hlinked)
  rw [hfamilies]
  exact ⟨rfl, pairwise_disjoint_components (List.Nodup.of_map _ hc) _,
    fun _ => sublist_of_mem_components, heads_sublist_components _ _⟩

/-- Two contracts of one function and one between them without any. -/
def twinsApart : List Profile :=
  [{ address := "0xa", name := none,
     patterns := [⟨"0xa9059cbb", "transfer(address,uint256)", .erc20, 0, none⟩] },
   { address := "0xb", name := none },
   { address := "0xc", name := none,
     patterns := [⟨"0xa9059cbb", "transfer(address,uint256)", .erc20, 0, none⟩] }]

theorem families_of_ofProfiles_twinsApart : (70 : Binary64).isNaN = false ∧
    ∃ c, ofProfiles 80 twinsApart [] none = .ok c ∧
      { c with similarities := c.similarities.reverse }.families 70 =
        c.components (70 ≤ ·.percent) := by
  have hn : (keys twinsApart).Nodup := by decide +kernel
  have ht : (70 : Binary64).isNaN = false := by decide +kernel
  refine ⟨ht, _, ofProfiles_of_nodup hn, ?_⟩
  exact (families_of_ofProfiles (ofProfiles_of_nodup hn) ht (List.reverse_perm _)).1

end ContractSurvey.Comparison
