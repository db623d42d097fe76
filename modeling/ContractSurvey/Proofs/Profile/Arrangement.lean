import ContractSurvey.Proofs.Profile.Ranking
import Mathlib.Data.List.Perm.Basic
import Mathlib.Order.Defs.Unbundled

/-!
# Proofs — Profile — Arrangement

The patterns of a code do not depend on the way in which the candidates are gone through.  On the
known functions in one text the order of the report is a strict total order
(`isStrictTotalOrder_precedes`): confidences are numbers, and where they are equal the dictionary
decides.  The sort follows this order and nothing else (`ranksBefore_iff`), so the patterns have one
arrangement, from whatever order they are sorted (`eq_of_perm_of_ranked`).

The main statement is `classify_congr`: lists of candidates with the same selectors, up to letter
case, order and repetition, are classified into the same patterns, and so is every list of these
selectors in lower case that names each of them once.
-/

namespace ContractSurvey.Pattern

variable {cs : List Char} {p q r : Pattern}

/-! ### Known functions in a text -/

/-- The pattern of a known function in the text. -/
def IsKnown (cs : List Char) (p : Pattern) : Prop :=
  ∃ s e, Signature.lookup? s = some e ∧ ofSignature cs e = p

theorem IsKnown.isNaN (hp : IsKnown cs p) : p.confidence.isNaN = false := by
  obtain ⟨_, e, -, rfl⟩ := hp
  exact isNaN_confidenceIn e.selector cs

theorem IsKnown.mem_dictionary (hp : IsKnown cs p) :
    p.selector ∈ Signature.dictionary.map (·.selector) := by
  obtain ⟨_, e, he, rfl⟩ := hp
  exact List.mem_map_of_mem (Signature.lookup?_eq_some he).1

theorem IsKnown.eq_of_selector_eq (hp : IsKnown cs p) (hq : IsKnown cs q)
    (h : p.selector = q.selector) : p = q := by
  obtain ⟨s, e, he, rfl⟩ := hp
  obtain ⟨t, e', he', rfl⟩ := hq
  have hst : s = t :=
    (Signature.lookup?_eq_some he).2.symm.trans (h.trans (Signature.lookup?_eq_some he').2)
  rw [hst, he'] at he
  rw [Option.some.inj he]

/-- In one text a known function is told by its place in the dictionary. -/
theorem IsKnown.eq_of_rank_eq (hp : IsKnown cs p) (hq : IsKnown cs q)
    (h : Signature.rank p.selector = Signature.rank q.selector) : p = q :=
  hp.eq_of_selector_eq hq (Signature.eq_of_rank_eq hp.mem_dictionary h)

theorem isKnown_of_mem_classify {candidates : List Selector} {code : Option String}
    (h : p ∈ classify candidates code) : IsKnown (Bytecode.text code) p := by
  obtain ⟨s, -, e, he, rfl⟩ := Profile.mem_classify.mp h
  exact ⟨_, e, he, rfl⟩

/-! ### The order of the report -/

theorem precedes_iff_units (hp : p.confidence.isNaN = false) (hq : q.confidence.isNaN = false) :
    Precedes p q ↔ q.confidence.units ≤ p.confidence.units ∧
      (p.confidence.units ≤ q.confidence.units →
        Signature.rank p.selector < Signature.rank q.selector) := by
  rw [Precedes, Binary64.le_iff_units hq hp, Binary64.le_iff_units hp hq]

theorem not_precedes_self (p : Pattern) : ¬ Precedes p p := fun h =>
  Nat.lt_irrefl _ (h.2 h.1)

theorem Precedes.trans (hpq : Precedes p q) (hqr : Precedes q r) : Precedes p r := by
  refine ⟨Binary64.le_trans hqr.1 hpq.1, fun hpr => ?_⟩
  -- the three confidences are equal
  exact Nat.lt_trans (hpq.2 (Binary64.le_trans hpr hqr.1)) (hqr.2 (Binary64.le_trans hpq.1 hpr))

theorem IsKnown.precedes_or (hp : IsKnown cs p) (hq : IsKnown cs q) :
    Precedes p q ∨ p = q ∨ Precedes q p := by
  rw [precedes_iff_units hp.isNaN hq.isNaN, precedes_iff_units hq.isNaN hp.isNaN]
  by_cases hrank : Signature.rank p.selector = Signature.rank q.selector
  · exact .inr (.inl (hp.eq_of_rank_eq hq hrank))
  · omega

/-- **The order of the report** is a strict total order on the known functions in one text. -/
theorem isStrictTotalOrder_precedes (cs : List Char) :
    IsStrictTotalOrder {p // IsKnown cs p} fun p q => Precedes p q where
  irrefl p := not_precedes_self p
  trans _ _ _ := Precedes.trans
  trichotomous p q hpq hqp := by
    rcases p.2.precedes_or q.2 with h | h | h
    · exact absurd h hpq
    · exact Subtype.ext h
    · exact absurd h hqp

/-- What is sorted by is the order of the report. -/
theorem ranksBefore_iff (hp : IsKnown cs p) (hq : IsKnown cs q) :
    ranksBefore p q = true ↔ p = q ∨ Precedes p q := by
  rw [ranksBefore_eq hp.isNaN hq.isNaN, ranksBeforeByUnits, precedes_iff_units hp.isNaN hq.isNaN]
  simp only [Bool.or_eq_true, Bool.and_eq_true, decide_eq_true_eq]
  constructor
  · intro hranks
    by_cases hrank : Signature.rank p.selector = Signature.rank q.selector
    · exact .inl (hp.eq_of_rank_eq hq hrank)
    · exact .inr (by omega)
  · rintro (rfl | hprecedes)
    · exact .inr ⟨Int.le_refl _, Nat.le_refl _⟩
    · omega

/-! ### One arrangement -/

/-- Known functions have only one arrangement in the order of the report. -/
theorem eq_of_perm_of_ranked {ps qs : List Pattern} (hps : ∀ p ∈ ps, IsKnown cs p)
    (hperm : ps.Perm qs) (hp : ps.Pairwise fun p q => ranksBefore p q = true)
    (hq : qs.Pairwise fun p q => ranksBefore p q = true) : ps = qs := by
  refine List.Perm.eq_of_pairwise (fun p q hpmem hqmem hpq hqp => ?_) hp hq hperm
  have hpknown := hps p hpmem
  have hqknown := hps q (hperm.mem_iff.mpr hqmem)
  rcases (ranksBefore_iff hpknown hqknown).mp hpq with h | h
  · exact h
  rcases (ranksBefore_iff hqknown hpknown).mp hqp with h' | h'
  · exact h'.symm
  · exact absurd (h.trans h') (not_precedes_self p)

/-- The patterns of the known functions among some candidates, as the candidates come. -/
def met (cs : List Char) (candidates : List Selector) : List Pattern :=
  (candidates.filterMap Signature.lookup?).map (ofSignature cs)

theorem isKnown_of_mem_met {candidates : List Selector} (h : p ∈ met cs candidates) :
    IsKnown cs p := by
  obtain ⟨e, he, rfl⟩ := List.mem_map.mp h
  obtain ⟨s, -, hs⟩ := List.mem_filterMap.mp he
  exact ⟨s, e, hs, rfl⟩

theorem ranked_mergeSort_met (cs : List Char) (candidates : List Selector) :
    ((met cs candidates).mergeSort ranksBefore).Pairwise fun p q => ranksBefore p q = true := by
  have hknown {p : Pattern} (hp : p ∈ (met cs candidates).mergeSort ranksBefore) : IsKnown cs p :=
    isKnown_of_mem_met (List.mem_mergeSort.mp hp)
  refine (pairwise_mergeSort_ranksBefore fun p hp => (isKnown_of_mem_met hp).isNaN).imp_of_mem ?_
  intro p q hp hq hranks
  rwa [ranksBefore_eq (hknown hp).isNaN (hknown hq).isNaN]

/-- The order in which candidates come is not seen in their sorted patterns. -/
theorem mergeSort_met_congr {ss ts : List Selector} (h : ss.Perm ts) (cs : List Char) :
    (met cs ss).mergeSort ranksBefore = (met cs ts).mergeSort ranksBefore := by
  have hmet : (met cs ss).Perm (met cs ts) := (h.filterMap _).map _
  refine eq_of_perm_of_ranked (fun p hp => isKnown_of_mem_met (List.mem_mergeSort.mp hp)) ?_
    (ranked_mergeSort_met cs ss) (ranked_mergeSort_met cs ts)
  exact ((List.mergeSort_perm _ _).trans hmet).trans (List.mergeSort_perm _ _).symm

/-- **Candidates as a set.**  Lists of candidates with the same selectors, up to order, repetition
and letter case, are classified into the same patterns.  The selectors may be gone through in any
order in which each of them comes once: the sort brings their patterns into the one order that there
is, since confidence and place in the dictionary order the known functions strictly and totally. -/
theorem classify_congr {ss ts : List Selector}
    (h : ∀ s, s ∈ ss.map Text.lower ↔ s ∈ ts.map Text.lower) (code : Option String) :
    classify ss code = classify ts code ∧
    (∀ order : List Selector, order.Nodup → (∀ s, s ∈ order ↔ s ∈ ss.map Text.lower) →
      (met (Bytecode.text code) order).mergeSort ranksBefore = classify ts code) ∧
    (∀ p ∈ classify ss code, IsKnown (Bytecode.text code) p) ∧
    IsStrictTotalOrder {p // IsKnown (Bytecode.text code) p} (fun p q => Precedes p q) ∧
    ∀ p q, IsKnown (Bytecode.text code) p → IsKnown (Bytecode.text code) q →
      (ranksBefore p q = true ↔ p = q ∨ Precedes p q) := by
  have hany (order : List Selector) (hnodup : order.Nodup)
      (hmem : ∀ s, s ∈ order ↔ s ∈ ss.map Text.lower) :
      (met (Bytecode.text code) order).mergeSort ranksBefore = classify ts code := by
    refine mergeSort_met_congr ?_ _
    refine (List.perm_ext_iff_of_nodup hnodup (Sequence.nodup_distinct _)).mpr fun s => ?_
    rw [Sequence.mem_distinct, hmem, h]
  refine ⟨?_, hany, fun p => isKnown_of_mem_classify, isStrictTotalOrder_precedes _,
    fun p q => ranksBefore_iff⟩
  exact hany _ (Sequence.nodup_distinct _) fun s => Sequence.mem_distinct

/-- Two functions of equal confidence, one of them named twice, in the other order and letter
case. -/
theorem classify_congr_tie :
    (∀ s, s ∈ ["0xA9059CBB", "0x70a08231", "0xa9059cbb"].map Text.lower ↔
      s ∈ ["0x70A08231", "0xa9059cBB"].map Text.lower) ∧
    classify ["0xA9059CBB", "0x70a08231", "0xa9059cbb"] (some "0x6080") =
      classify ["0x70A08231", "0xa9059cBB"] (some "0x6080") := by
  have hfirst : ["0xA9059CBB", "0x70a08231", "0xa9059cbb"].map Text.lower =
      ["0xa9059cbb", "0x70a08231", "0xa9059cbb"] := by decide
  have hsecond : ["0x70A08231", "0xa9059cBB"].map Text.lower = ["0x70a08231", "0xa9059cbb"] := by
    decide
  have hsame : ∀ s, s ∈ ["0xA9059CBB", "0x70a08231", "0xa9059cbb"].map Text.lower ↔
      s ∈ ["0x70A08231", "0xa9059cBB"].map Text.lower := by
    intro s
    rw [hfirst, hsecond]
    simp only [List.mem_cons, List.not_mem_nil, or_false]
    tauto
  exact ⟨hsame, (classify_congr hsame (some "0x6080")).1⟩

end ContractSurvey.Pattern
