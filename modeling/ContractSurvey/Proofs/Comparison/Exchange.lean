import ContractSurvey.Proofs.Comparison.Components
import ContractSurvey.Proofs.Profile.Pattern
import Mathlib.Data.List.Sort
import Mathlib.Data.String.Basic
import Mathlib.Data.Sym.Sym2

/-!
# Proofs — Comparison — Exchange

Which of two contracts comes first does not matter.  Both read their names from the dictionary, so
exchanging them exchanges the two addresses of their similarity and nothing else
(`Similarity.of?_exchange`).  A proxy has fewer functions than its implementation, so no two
contracts look like proxies for each other, and exchanging them keeps a proxy what it is and
exchanges the two addresses of a likeness (`Relationship.detect?_exchange`).
-/

namespace ContractSurvey

/-! ### Two contracts exchanged -/

namespace Similarity

/-- The two addresses of a similarity, in no order. -/
def addresses (s : Similarity) : Sym2 String := s(s.first, s.second)

theorem addresses_eq {a b : Profile} {s : Similarity} (h : of? a b = some s) :
    s.addresses = s(a.address, b.address) := by
  obtain ⟨hfirst, hsecond, -⟩ := of?_eq_some h
  rw [addresses, hfirst, hsecond]

/-- A similarity without the order of its two addresses. -/
def unordered (s : Similarity) : Sym2 String × Binary64 × List String × Option Quantity :=
  (s.addresses, s.percent, s.shared, s.total)

/-- A common selector has the same name in both contracts. -/
def SameNames (a b : Profile) : Prop := ∀ s ∈ common a b, nameIn a s = nameIn b s

/-- The profile of a code names a selector as the dictionary does. -/
theorem nameIn?_of_ofCode {address : String} {code name : Option String} {p : Profile}
    (h : Profile.ofCode address code name = .ok p) {s : Selector} (hs : s ∈ p.selectors) :
    nameIn? p s = (Signature.lookup? s).map (·.name) := by
  have hsome := isSome_nameIn? hs
  rw [nameIn?, Option.isSome_map] at hsome
  obtain ⟨q, hq⟩ := Option.isSome_iff_exists.mp hsome
  have hselector : q.selector = s := by simpa using List.find?_some hq
  have hmem : q ∈ p.patterns := List.mem_reverse.mp (List.mem_of_find?_eq_some hq)
  obtain ⟨e, he, hname, -⟩ := Profile.lookup?_of_ofCode h hmem
  rw [nameIn?, hq, ← hselector, he, Option.map_some, Option.map_some, hname]

theorem sameNames_of_ofCode {a b : Profile}
    (ha : ∃ address code name, Profile.ofCode address code name = .ok a)
    (hb : ∃ address code name, Profile.ofCode address code name = .ok b) : SameNames a b := by
  obtain ⟨_, _, _, ha⟩ := ha
  obtain ⟨_, _, _, hb⟩ := hb
  intro s hs
  obtain ⟨hsa, hsb⟩ := mem_common.mp hs
  rw [nameIn, nameIn, nameIn?_of_ofCode ha hsa, nameIn?_of_ofCode hb hsb]

theorem nodup_selectors (p : Profile) : p.selectors.Nodup := Sequence.nodup_distinct _

theorem nodup_common (a b : Profile) : (common a b).Nodup := (nodup_selectors a).filter _

theorem perm_common (a b : Profile) : (common b a).Perm (common a b) := by
  refine (List.perm_ext_iff_of_nodup (nodup_common b a) (nodup_common a b)).mpr fun s => ?_
  rw [mem_common, mem_common]
  exact and_comm

theorem nodup_union (a b : Profile) : (union a b).Nodup := by
  refine List.Nodup.append (nodup_selectors a) ((nodup_selectors b).filter _) fun s ha hb => ?_
  exact of_decide_eq_true (List.mem_filter.mp hb).2 ha

theorem perm_union (a b : Profile) : (union b a).Perm (union a b) := by
  refine (List.perm_ext_iff_of_nodup (nodup_union b a) (nodup_union a b)).mpr fun s => ?_
  rw [mem_union, mem_union]
  exact or_comm

/-- Texts have one sorted order. -/
theorem mergeSort_eq_of_perm {xs ys : List String} (h : xs.Perm ys) :
    xs.mergeSort (· ≤ ·) = ys.mergeSort (· ≤ ·) :=
  (((List.mergeSort_perm xs _).trans h).trans (List.mergeSort_perm ys _).symm).eq_of_pairwise'
    (List.pairwise_mergeSort' (· ≤ ·) xs) (List.pairwise_mergeSort' (· ≤ ·) ys)

/-- **Two contracts exchanged**: their similarity has its addresses exchanged, and nothing else
changes. -/
theorem of?_exchange {a b : Profile} (h : SameNames a b) :
    (of? b a).map unordered = (of? a b).map unordered := by
  have hunion := perm_union a b
  have hshared : ((common b a).map (nameIn b)).Perm ((common a b).map (nameIn a)) := by
    rw [List.map_congr_left h]
    exact (perm_common a b).map _
  simp only [of?, hunion.isEmpty_eq]
  split
  · rfl
  · rw [Option.map_some, Option.map_some, unordered, unordered, addresses, addresses,
      Sym2.eq_swap, hunion.length_eq, (perm_common a b).length_eq, mergeSort_eq_of_perm hshared]

end Similarity

namespace Relationship

/-- The two addresses of a relationship, in no order. -/
def addresses (r : Relationship) : Sym2 String := s(r.first, r.second)

theorem addresses_eq {threshold : Binary64} {a b : Profile} {s : Option Similarity}
    {r : Relationship} (h : detect? threshold a b s = some r) :
    r.addresses = s(a.address, b.address) := by
  unfold detect? at h
  split at h
  · cases h
    rfl
  · split at h
    · cases h
      exact Sym2.eq_swap
    · split at h
      · cases h
      · split at h
        · cases h
          rfl
        · cases h

/-- A relationship without the order of its two addresses, unless the first is a proxy for the
second. -/
def unordered (r : Relationship) :
    Sym2 String × Option (String × String) × RelationshipKind × String × Binary64 :=
  (r.addresses, if r.kind = .proxyOf then some (r.first, r.second) else none, r.kind,
    r.description, r.confidence)

/-- A proxy has fewer functions than its implementation. -/
theorem functionCount_lt_of_looksLikeProxy {a b : Profile} (h : looksLikeProxy a b = true) :
    a.functionCount < b.functionCount := by
  unfold looksLikeProxy at h
  split at h
  · cases h
  · cases h
  · exact of_decide_eq_true (Bool.and_eq_true_iff.mp h).1

/-- No two contracts look like proxies for each other. -/
theorem not_looksLikeProxy_exchange {a b : Profile} (h : looksLikeProxy a b = true) :
    ¬ looksLikeProxy b a = true := fun hba =>
  lt_asymm (functionCount_lt_of_looksLikeProxy h) (functionCount_lt_of_looksLikeProxy hba)

/-- Without a proxy only the percentage of the similarity counts. -/
theorem detect?_exchange_of_not_looksLikeProxy {threshold : Binary64} {a b : Profile}
    (hab : ¬ looksLikeProxy a b = true) (hba : ¬ looksLikeProxy b a = true)
    {s t : Option Similarity} (h : t.map Similarity.unordered = s.map Similarity.unordered) :
    (detect? threshold b a t).map unordered = (detect? threshold a b s).map unordered := by
  simp only [detect?, if_neg hab, if_neg hba]
  cases s with
  | none =>
      rw [Option.map_none, Option.map_eq_none_iff] at h
      rw [h]
  | some s =>
      obtain ⟨t, rfl, ht⟩ := Option.map_eq_some_iff.mp h
      have hpercent : t.percent = s.percent := congrArg (·.2.1) ht
      simp only [hpercent]
      split
      · rw [Option.map_some, Option.map_some, unordered, unordered, addresses, addresses,
          Sym2.eq_swap]
        rfl
      · rfl

/-- **Two contracts exchanged**: a proxy stays the proxy, and a likeness has its addresses
exchanged; nothing else changes. -/
theorem detect?_exchange {threshold : Binary64} {a b : Profile} (h : Similarity.SameNames a b) :
    (detect? threshold b a (Similarity.of? b a)).map unordered =
      (detect? threshold a b (Similarity.of? a b)).map unordered := by
  by_cases hab : looksLikeProxy a b = true
  · have hba := not_looksLikeProxy_exchange hab
    simp only [detect?, if_pos hab, if_neg hba]
  · by_cases hba : looksLikeProxy b a = true
    · simp only [detect?, if_neg hab, if_pos hba]
    · exact detect?_exchange_of_not_looksLikeProxy hab hba (Similarity.of?_exchange h)

end Relationship

end ContractSurvey
