import ContractSurvey.Proofs.Comparison.Exchange
import ContractSurvey.Proofs.Comparison.Percentage
import ContractSurvey.Proofs.Profile.Code
import Mathlib.Data.Finset.Card

/-!
# Proofs — Comparison — Overlap

The similarity of two contracts as an overlap of two sets.  `Overlap` says what it tells of the sets
of selectors: their percentage, the names of what they share and the size of their union.

The lists of the comparison stand for sets because no profile repeats a selector (`card_inter`,
`card_union`).  The percentage is a rounded quotient; it is exact at its two ends because all
selectors come from the dictionary, which has far less than ten thousand (`length_union_lt`).

The main statement is `between_of_ofCode`, for the profiles of any two codes.
-/

namespace ContractSurvey

/-- The selectors of the recognised functions as a set. -/
def Profile.selectorSet (p : Profile) : Finset Selector := p.selectors.toFinset

namespace Similarity

variable {a b : Profile}

/-! ### Sets of selectors -/

theorem mem_selectorSet {p : Profile} {s : Selector} : s ∈ p.selectorSet ↔ s ∈ p.selectors :=
  List.mem_toFinset

theorem card_inter (a b : Profile) :
    (a.selectorSet ∩ b.selectorSet).card = (common a b).length := by
  have hset : a.selectorSet ∩ b.selectorSet = (common a b).toFinset := by
    ext s
    rw [Finset.mem_inter, mem_selectorSet, mem_selectorSet, List.mem_toFinset, mem_common]
  rw [hset, List.toFinset_card_of_nodup (nodup_common a b)]

theorem card_union (a b : Profile) : (a.selectorSet ∪ b.selectorSet).card = (union a b).length := by
  have hset : a.selectorSet ∪ b.selectorSet = (union a b).toFinset := by
    ext s
    rw [Finset.mem_union, mem_selectorSet, mem_selectorSet, List.mem_toFinset, mem_union]
  rw [hset, List.toFinset_card_of_nodup (nodup_union a b)]

theorem length_common_le (a b : Profile) : (common a b).length ≤ (union a b).length := by
  rw [← card_inter, ← card_union]
  exact Finset.card_le_card (Finset.inter_subset_left.trans Finset.subset_union_left)

/-- Everything is shared exactly by equal sets. -/
theorem length_common_eq_iff :
    (common a b).length = (union a b).length ↔ a.selectorSet = b.selectorSet := by
  rw [← card_inter, ← card_union]
  constructor
  · intro h
    have hsub : a.selectorSet ∩ b.selectorSet ⊆ a.selectorSet ∪ b.selectorSet :=
      Finset.inter_subset_left.trans Finset.subset_union_left
    exact inf_eq_sup.mp (Finset.eq_of_subset_of_card_le hsub h.ge)
  · rintro h
    rw [h, Finset.inter_self, Finset.union_self]

theorem length_common_eq_zero_iff :
    (common a b).length = 0 ↔ Disjoint a.selectorSet b.selectorSet := by
  rw [← card_inter, Finset.card_eq_zero, Finset.disjoint_iff_inter_eq_empty]

/-! ### Selectors of codes -/

/-- The profile is that of a code. -/
def OfCode (p : Profile) : Prop := ∃ address code name, Profile.ofCode address code name = .ok p

theorem exists_lookup?_of_ofCode (ha : OfCode a) {s : Selector} (hs : s ∈ a.selectors) :
    ∃ e, Signature.lookup? s = some e := by
  obtain ⟨_, _, _, ha⟩ := ha
  obtain ⟨q, hq, rfl⟩ := mem_selectors.mp hs
  obtain ⟨e, he, -⟩ := Profile.lookup?_of_ofCode ha hq
  exact ⟨e, he⟩

/-- Two codes have no more selectors than the dictionary. -/
theorem length_union_lt (ha : OfCode a) (hb : OfCode b) : (union a b).length < 1024 := by
  have hsubset : union a b ⊆ Signature.dictionary.map (·.selector) := by
    intro s hs
    rw [← Signature.exists_lookup?_iff]
    rcases mem_union.mp hs with hs | hs
    · exact exists_lookup?_of_ofCode ha hs
    · exact exists_lookup?_of_ofCode hb hs
  have hlength := (List.subperm_of_subset (nodup_union a b) hsubset).length_le
  rw [List.length_map] at hlength
  exact Nat.lt_of_le_of_lt hlength Signature.length_dictionary_lt

/-! ### Names -/

/-- No two functions of the dictionary have one name. -/
theorem selector_eq_of_name_eq {e e' : Signature} (he : e ∈ Signature.dictionary)
    (he' : e' ∈ Signature.dictionary) (h : e.name = e'.name) : e.selector = e'.selector := by
  have hnames : Signature.registered.Pairwise fun e e' =>
      e.name = e'.name → e.selector = e'.selector := by decide +kernel
  have hsymm : Std.Symm fun e e' : Signature => e.name = e'.name → e.selector = e'.selector :=
    ⟨fun _ _ hsame heq => (hsame heq.symm).symm⟩
  have hsubset := (Signature.firstOfEach_sublist Signature.registered).subset
  exact hnames.forall_of_forall (fun _ _ _ => rfl) (hsubset he) (hsubset he') h

/-- The names of the functions shared are those of the dictionary. -/
theorem map_nameIn_common (ha : OfCode a) : (common a b).map (nameIn a) =
    (common a b).filterMap fun s => (Signature.lookup? s).map (·.name) := by
  rw [← List.filterMap_eq_map]
  refine List.filterMap_congr fun s hs => ?_
  obtain ⟨_, _, _, h⟩ := ha
  have hs := (mem_common.mp hs).1
  rw [Function.comp, nameIn, ← nameIn?_of_ofCode h hs]
  exact (Option.some_get (isSome_nameIn? hs)) ▸ rfl

theorem nodup_map_nameIn (ha : OfCode a) : ((common a b).map (nameIn a)).Nodup := by
  rw [map_nameIn_common ha]
  refine (nodup_common a b).filterMap fun s t name hs ht => ?_
  obtain ⟨e, he, rfl⟩ := Option.map_eq_some_iff.mp hs
  obtain ⟨e', he', hname⟩ := Option.map_eq_some_iff.mp ht
  obtain ⟨hmem, rfl⟩ := Signature.lookup?_eq_some he
  obtain ⟨hmem', rfl⟩ := Signature.lookup?_eq_some he'
  exact selector_eq_of_name_eq hmem hmem' hname.symm

/-! ### The overlap -/

/-- What the similarity of two contracts tells of their sets of selectors. -/
structure Overlap (a b : Profile) (s : Similarity) : Prop where
  addresses : s.first = a.address ∧ s.second = b.address
  least : 0 ≤ s.percent
  most : s.percent ≤ 100
  eq_hundred_iff : s.percent = 100 ↔ a.selectorSet = b.selectorSet
  eq_zero_iff : s.percent = 0 ↔ Disjoint a.selectorSet b.selectorSet
  /-- The names of the functions shared, in ascending order and each of them once. -/
  ascending : s.shared.Pairwise (· < ·)
  names : s.shared.Perm ((common a b).filterMap fun t => (Signature.lookup? t).map (·.name))
  length_shared : s.shared.length = (a.selectorSet ∩ b.selectorSet).card
  total : s.total = some (.whole (a.selectorSet ∪ b.selectorSet).card)

theorem overlap_of_of? (ha : OfCode a) (hb : OfCode b) {s : Similarity} (h : of? a b = some s) :
    Overlap a b s := by
  obtain ⟨hfirst, hsecond, -⟩ := of?_eq_some h
  obtain ⟨hpos, hpercent, hshared, htotal⟩ := of?_fields h
  have hle := length_common_le a b
  have hfew : (union a b).length ≤ 10000 := by
    have := length_union_lt ha hb
    omega
  have hbounds := percentage_bounds hpos hle
  have hperm : s.shared.Perm ((common a b).map (nameIn a)) := hshared ▸ List.mergeSort_perm _ _
  have hsorted : s.shared.Pairwise (· ≤ ·) := hshared ▸ List.pairwise_mergeSort' (· ≤ ·) _
  have hnodup := hperm.nodup_iff.mpr (nodup_map_nameIn ha)
  exact {
    addresses := ⟨hfirst, hsecond⟩
    least := hpercent ▸ hbounds.1
    most := hpercent ▸ hbounds.2
    eq_hundred_iff := by
      rw [hpercent, percentage_eq_hundred_iff hpos hle hfew, length_common_eq_iff]
    eq_zero_iff := by
      rw [hpercent, percentage_eq_zero_iff hpos hle hfew, length_common_eq_zero_iff]
    ascending := (hsorted.and hnodup).imp fun h => lt_of_le_of_ne h.1 h.2
    names := map_nameIn_common ha ▸ hperm
    length_shared := by rw [hperm.length_eq, List.length_map, card_inter]
    total := by rw [htotal, card_union] }

/-! ### Two contracts exchanged -/

/-- A similarity with its two addresses exchanged. -/
def exchanged (s : Similarity) : Similarity := { s with first := s.second, second := s.first }

theorem of?_eq_exchanged (h : SameNames a b) : of? b a = (of? a b).map exchanged := by
  have hunordered := of?_exchange h
  cases hab : of? a b with
  | none => simpa [hab] using hunordered
  | some s =>
      rw [hab, Option.map_some, Option.map_eq_some_iff] at hunordered
      obtain ⟨t, hba, ht⟩ := hunordered
      obtain ⟨hfirst, hsecond, -⟩ := of?_eq_some hab
      obtain ⟨hfirst', hsecond', -⟩ := of?_eq_some hba
      have hpercent : t.percent = s.percent := congrArg (·.2.1) ht
      have hshared : t.shared = s.shared := congrArg (·.2.2.1) ht
      have htotal : t.total = s.total := congrArg (·.2.2.2) ht
      rw [hba, Option.map_some, exchanged, ← hpercent, ← hshared, ← htotal, hfirst, hsecond,
        ← hfirst', ← hsecond']

/-- **The similarity of two codes** with different addresses, up to letter case.  There is one
unless neither contract has a recognised function, and then it tells the overlap of their sets of
selectors: 100 for equal sets only, 0 for disjoint ones only.  Exchanging the contracts exchanges
its addresses and nothing else. -/
theorem between_of_ofCode {addressA addressB : String} {codeA codeB nameA nameB : Option String}
    (ha : Profile.ofCode addressA codeA nameA = .ok a)
    (hb : Profile.ofCode addressB codeB nameB = .ok b)
    (hne : Text.lower a.address ≠ Text.lower b.address) :
    ∃ found, between a b = .ok found ∧ between b a = .ok (found.map exchanged) ∧
      (found = none ↔ a.patterns = [] ∧ b.patterns = []) ∧ ∀ s ∈ found, Overlap a b s := by
  have ha : OfCode a := ⟨_, _, _, ha⟩
  have hb : OfCode b := ⟨_, _, _, hb⟩
  refine ⟨of? a b, between_of_ne hne, ?_, ?_, fun s hs => overlap_of_of? ha hb hs⟩
  · rw [between_of_ne hne.symm, of?_eq_exchanged (sameNames_of_ofCode ha hb)]
  · rw [of?_eq_none_iff, selectors_eq_nil_iff, selectors_eq_nil_iff]

/-- Two codes with one function in common, of two. -/
theorem between_of_ofCode_halves : ∃ a b : Profile,
    Profile.ofCode "0xa" (some "0x63a9059cbb") none = .ok a ∧
    Profile.ofCode "0xB" (some "0x63a9059cbb63095ea7b3") none = .ok b ∧
    Text.lower a.address ≠ Text.lower b.address ∧
    ∃ s, between a b = .ok (some s) ∧ between b a = .ok (some s.exchanged) ∧ Overlap a b s := by
  obtain ⟨a, ha, haddress⟩ := Profile.exists_ofCode (some "0x63a9059cbb") "0xa" none
    (by decide +kernel)
  obtain ⟨b, hb, haddress'⟩ := Profile.exists_ofCode (some "0x63a9059cbb63095ea7b3") "0xB" none
    (by decide +kernel)
  have hne : Text.lower a.address ≠ Text.lower b.address := by
    rw [haddress, haddress']
    decide +kernel
  have hpatterns : a.patterns ≠ [] := by
    rw [(Profile.ofCode_eq_ok ha).2.2]
    decide +kernel
  obtain ⟨found, hab, hba, hnone, hoverlap⟩ := between_of_ofCode ha hb hne
  cases found with
  | none => exact absurd (hnone.mp rfl).1 hpatterns
  | some s => exact ⟨a, b, ha, hb, hne, s, hab, hba, hoverlap s rfl⟩

end Similarity

end ContractSurvey
