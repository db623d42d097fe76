import ContractSurvey.Proofs.Comparison.Components
import ContractSurvey.Proofs.Comparison.Exchange
import Mathlib.Data.List.Sym

/-!
# Proofs — Comparison — Permutation

A comparison does not hang on the order in which the contracts of some codes come.

* `perm_filterMap_pairs`: what is found about the pairs of a list, whichever element of a pair comes
  first, is found about the pairs of a permutation.
* `component_perm`: contracts that hang together in one comparison do so in another one with the
  same similarities.
* `ofProfiles_perm`: permuted contracts have the same similarities and relationships, at most one
  of each for two addresses, and the same families.
-/

namespace ContractSurvey.Comparison

/-! ### The pairs of a permuted list -/

theorem perm_filterMap_pairs {α β : Type} {f : α → α → Option β} {xs ys : List α}
    (h : xs.Perm ys) (hf : ∀ a ∈ xs, ∀ b ∈ xs, f a b = f b a) :
    ((pairs xs).filterMap fun ab => f ab.1 ab.2).Perm
      ((pairs ys).filterMap fun ab => f ab.1 ab.2) := by
  induction h with
  | nil => exact .refl _
  | cons a h ih =>
      rw [pairs, pairs, List.filterMap_append, List.filterMap_append]
      refine ((h.map _).filterMap _).append (ih fun b hb c hc => ?_)
      exact hf b (List.mem_cons_of_mem _ hb) c (List.mem_cons_of_mem _ hc)
  | swap a b xs =>
      -- the pair of the two is turned, and their pairs with the others change places
      have hturned : f b a = f a b := hf b (by simp) a (by simp)
      simp only [pairs, List.map_cons, List.cons_append, List.filterMap_cons, hturned,
        List.filterMap_append]
      cases f a b with
      | none => exact List.perm_append_comm_assoc _ _ _
      | some c => exact (List.perm_append_comm_assoc _ _ _).cons c
  | trans h _ ih ih' =>
      refine (ih hf).trans (ih' fun a ha b hb => ?_)
      exact hf a (h.mem_iff.mpr ha) b (h.mem_iff.mpr hb)

/-- The unordered pairs of a list are among those that may be of an element with itself. -/
theorem map_pairs_sublist_sym2 {α β : Type} (key : α → β) (xs : List α) :
    ((pairs xs).map fun ab => s(key ab.1, key ab.2)).Sublist (xs.map key).sym2 := by
  induction xs with
  | nil => exact .refl _
  | cons a xs ih =>
      simp only [pairs, List.map_append, List.map_map, List.map_cons, List.sym2, List.cons_append]
      exact (List.Sublist.append (.refl _) ih).cons _

/-- What is found about some elements, told by keys of theirs, is a part of all keys. -/
theorem map_filterMap_sublist {α β γ : Type} {f : α → Option β} {key : β → γ} {key' : α → γ}
    (h : ∀ a, ∀ b ∈ f a, key b = key' a) (xs : List α) :
    ((xs.filterMap f).map key).Sublist (xs.map key') := by
  induction xs with
  | nil => exact .refl _
  | cons a xs ih =>
      rw [List.filterMap_cons]
      split
      · exact ih.cons _
      · next b hb =>
          rw [List.map_cons, List.map_cons, h a b hb]
          exact ih.cons_cons _

/-! ### Components of permuted contracts -/

section

variable {c d : Comparison} {threshold : Binary64} (hp : d.profiles.Perm c.profiles)
  (hs : (d.similarities.map Similarity.unordered).Perm (c.similarities.map Similarity.unordered))
include hp hs

/-- Contracts that hang together do so in another comparison with the same similarities. -/
theorem Connected.of_unordered {p q : Profile} (h : d.Connected (¬ ·.percent < threshold) p q) :
    c.Connected (¬ ·.percent < threshold) p q := by
  induction h with
  | rel p q h =>
      obtain ⟨hmem, hmem', s, hsim, hjoins, hfirst, hsecond⟩ := h
      rw [hp.mem_iff] at hmem hmem'
      obtain ⟨t, htsim, ht⟩ := List.mem_map.mp (hs.mem_iff.mp (List.mem_map_of_mem hsim))
      have hpercent : t.percent = s.percent := congrArg (·.2.1) ht
      have haddresses : s(t.first, t.second) = s(s.first, s.second) := congrArg Prod.fst ht
      rw [← hpercent] at hjoins
      rw [hfirst, hsecond, Sym2.eq_iff] at haddresses
      rcases haddresses with ⟨hfirst, hsecond⟩ | ⟨hfirst, hsecond⟩
      · exact .rel _ _ ⟨hmem, hmem', t, htsim, hjoins, hfirst, hsecond⟩
      · exact .symm _ _ (.rel _ _ ⟨hmem', hmem, t, htsim, hjoins, hfirst, hsecond⟩)
  | refl p => exact .refl _
  | symm p q _ ih => exact .symm _ _ ih
  | trans p q r _ _ ih ih' => exact .trans _ _ _ ih ih'

theorem component_perm (p : Profile) :
    (d.component (¬ ·.percent < threshold) p).Perm (c.component (¬ ·.percent < threshold) p) := by
  classical
  have hconnected (q : Profile) : d.Connected (¬ ·.percent < threshold) q p ↔
      c.Connected (¬ ·.percent < threshold) q p :=
    ⟨.of_unordered hp hs, .of_unordered hp.symm hs.symm⟩
  rw [component, component, List.filter_congr fun q _ => decide_eq_decide.mpr (hconnected q)]
  exact hp.filter _

theorem exists_perm_mem_components {f : List Profile}
    (hf : f ∈ d.components (¬ ·.percent < threshold)) :
    ∃ g ∈ c.components (¬ ·.percent < threshold), g.Perm f := by
  obtain ⟨hf, hlen⟩ := List.mem_filter.mp hf
  obtain ⟨p, -, rfl⟩ := List.mem_map.mp hf
  have hperm : (d.component (¬ ·.percent < threshold) p).Perm _ := component_perm hp hs p
  refine ⟨_, component_mem_components (p := p) ?_, hperm.symm⟩
  rw [← hperm.length_eq]
  exact of_decide_eq_true hlen

/-- Every family of one comparison is one of the other, in another order. -/
theorem exists_perm_mem_families (hc : c.DistinctAddresses) {f : List Profile}
    (hf : f ∈ d.families threshold) : ∃ g ∈ c.families threshold, g.Perm f := by
  have hd : d.DistinctAddresses := (hp.map _).nodup_iff.mpr hc
  rw [families_eq_components hd] at hf
  rw [families_eq_components hc]
  exact exists_perm_mem_components hp hs hf

end

/-! ### The result for permuted contracts -/

/-- The same groups, whatever the order of the groups and of their members. -/
def SameGroups (fs gs : List (List Profile)) : Prop :=
  (∀ f ∈ fs, ∃ g ∈ gs, g.Perm f) ∧ ∀ g ∈ gs, ∃ f ∈ fs, f.Perm g

/-- Two comparisons say the same but for order: of two addresses they have the same similarity and
the same relationship, with the same proxy if it is one, and at every threshold they have the same
families. -/
structure SameFindings (c d : Comparison) : Prop where
  similarities :
    (d.similarities.map Similarity.unordered).Perm (c.similarities.map Similarity.unordered)
  relationships :
    (d.relationships.map Relationship.unordered).Perm (c.relationships.map Relationship.unordered)
  families (threshold : Binary64) : SameGroups (c.families threshold) (d.families threshold)

section

variable {threshold : Binary64} {profiles profiles' : List Profile} {failed : List String}
  {network : Option String}

theorem distinctAddresses_outcome (h : (keys profiles).Nodup) :
    (outcome threshold profiles failed network).DistinctAddresses :=
  distinctAddresses_of_nodup_keys (outcome_profiles.symm ▸ h)

theorem nodup_addresses_outcome (h : (keys profiles).Nodup) :
    ((outcome threshold profiles failed network).similarities.map Similarity.addresses).Nodup ∧
    ((outcome threshold profiles failed network).relationships.map
      Relationship.addresses).Nodup := by
  have hn : (profiles.map (·.address)).Nodup := by
    have hc : (outcome threshold profiles failed network).DistinctAddresses :=
      distinctAddresses_outcome h
    rwa [DistinctAddresses, outcome_profiles] at hc
  have hpairs := hn.sym2.sublist (map_pairs_sublist_sym2 (·.address) profiles)
  constructor
  · rw [outcome_similarities, ((List.mergeSort_perm _ _).map _).nodup_iff]
    exact hpairs.sublist (map_filterMap_sublist (fun _ _ => Similarity.addresses_eq) _)
  · rw [outcome_relationships]
    exact hpairs.sublist (map_filterMap_sublist (fun _ _ => Relationship.addresses_eq) _)

theorem perm_outcome_similarities (hp : profiles'.Perm profiles)
    (hnames : ∀ a ∈ profiles', ∀ b ∈ profiles', Similarity.SameNames a b) :
    ((outcome threshold profiles' failed network).similarities.map Similarity.unordered).Perm
      ((outcome threshold profiles failed network).similarities.map Similarity.unordered) := by
  have hexchange : ∀ a ∈ profiles', ∀ b ∈ profiles',
      (Similarity.of? a b).map Similarity.unordered =
        (Similarity.of? b a).map Similarity.unordered :=
    fun a ha b hb => Similarity.of?_exchange (hnames b hb a ha)
  have hfound := perm_filterMap_pairs hp hexchange
  rw [← List.map_filterMap, ← List.map_filterMap] at hfound
  rw [outcome_similarities, outcome_similarities]
  exact (((List.mergeSort_perm _ _).map _).trans hfound).trans
    ((List.mergeSort_perm _ _).map _).symm

theorem perm_outcome_relationships (hp : profiles'.Perm profiles)
    (hnames : ∀ a ∈ profiles', ∀ b ∈ profiles', Similarity.SameNames a b) :
    ((outcome threshold profiles' failed network).relationships.map Relationship.unordered).Perm
      ((outcome threshold profiles failed network).relationships.map Relationship.unordered) := by
  have hexchange : ∀ a ∈ profiles', ∀ b ∈ profiles',
      (Relationship.detect? threshold a b (Similarity.of? a b)).map Relationship.unordered =
        (Relationship.detect? threshold b a (Similarity.of? b a)).map Relationship.unordered :=
    fun a ha b hb => Relationship.detect?_exchange (hnames b hb a ha)
  have hfound := perm_filterMap_pairs hp hexchange
  rw [← List.map_filterMap, ← List.map_filterMap] at hfound
  rw [outcome_relationships, outcome_relationships]
  exact hfound

/-- **The order of the contracts does not matter.**  The profiles of some codes with different
addresses, up to letter case, are compared in every order; every order finds the same, and at most
one similarity and one relationship of any two addresses. -/
theorem ofProfiles_perm
    (hcodes : ∀ p ∈ profiles, ∃ address code name, Profile.ofCode address code name = .ok p)
    (hn : (keys profiles).Nodup) (hp : profiles'.Perm profiles) :
    ∃ c d, ofProfiles threshold profiles failed network = .ok c ∧
      ofProfiles threshold profiles' failed network = .ok d ∧
      (c.similarities.map Similarity.addresses).Nodup ∧
      (c.relationships.map Relationship.addresses).Nodup ∧ SameFindings c d := by
  have hn' : (keys profiles').Nodup := (hp.map _).nodup_iff.mpr hn
  have hnames : ∀ a ∈ profiles', ∀ b ∈ profiles', Similarity.SameNames a b := fun a ha b hb =>
    Similarity.sameNames_of_ofCode (hcodes a (hp.mem_iff.mp ha)) (hcodes b (hp.mem_iff.mp hb))
  have hprofiles : (outcome threshold profiles' failed network).profiles.Perm
      (outcome threshold profiles failed network).profiles := by
    rwa [outcome_profiles, outcome_profiles]
  have hs : ((outcome threshold profiles' failed network).similarities.map
      Similarity.unordered).Perm _ := perm_outcome_similarities hp hnames
  obtain ⟨hsimilarities, hrelationships⟩ := nodup_addresses_outcome hn
  refine ⟨_, _, ofProfiles_of_nodup hn, ofProfiles_of_nodup hn', hsimilarities, hrelationships,
    hs, perm_outcome_relationships hp hnames, fun t => ⟨fun f hf => ?_, fun f hf => ?_⟩⟩
  · exact exists_perm_mem_families hprofiles.symm hs.symm (distinctAddresses_outcome hn') hf
  · exact exists_perm_mem_families hprofiles hs (distinctAddresses_outcome hn) hf

/-- Two codes, one with a known function and one without, in both orders. -/
theorem ofProfiles_perm_twoCodes : ∃ p q : Profile, p.address = "0xa" ∧ q.address = "0xB" ∧
    (∀ r ∈ [p, q], ∃ address code name, Profile.ofCode address code name = .ok r) ∧
    (keys [p, q]).Nodup ∧ [q, p].Perm [p, q] ∧
    ∃ c d, ofProfiles 80 [p, q] [] none = .ok c ∧ ofProfiles 80 [q, p] [] none = .ok d ∧
      SameFindings c d := by
  obtain ⟨p, hp, hpa⟩ := Profile.exists_ofCode (some "0x63a9059cbb") "0xa" none
    (by decide +kernel)
  obtain ⟨q, hq, hqa⟩ := Profile.exists_ofCode (some "0x00") "0xB" none (by decide +kernel)
  have hcodes : ∀ r ∈ [p, q], ∃ address code name, Profile.ofCode address code name = .ok r := by
    simpa using ⟨⟨_, _, _, hp⟩, _, _, _, hq⟩
  have hn : (keys [p, q]).Nodup := by
    rw [keys_cons, keys_cons, keys_nil, hpa, hqa]
    decide +kernel
  have hperm : [q, p].Perm [p, q] := .swap p q []
  obtain ⟨c, d, hc, hd, -, -, hsame⟩ := ofProfiles_perm hcodes hn hperm
  exact ⟨p, q, hpa, hqa, hcodes, hn, hperm, c, d, hc, hd, hsame⟩

end

end ContractSurvey.Comparison
