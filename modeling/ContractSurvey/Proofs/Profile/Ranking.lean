import ContractSurvey.Proofs.Number.Order
import ContractSurvey.Proofs.Profile.Pattern

/-!
# Proofs — Profile — Ranking

The order in which the patterns of a code are reported.  A confidence is a number
(`isNaN_confidenceIn`), and two known functions never share a place in the dictionary
(`eq_of_rank_eq`), so confidence and place together order the patterns without ties
(`pairwise_precedes_classify`).
-/

namespace ContractSurvey

namespace Signature

theorem selector_findIdx {es : List Signature} {s : Selector}
    (h : es.findIdx (·.selector = s) < es.length) :
    es[es.findIdx (·.selector = s)].selector = s :=
  of_decide_eq_true (List.findIdx_getElem (p := fun e : Signature => decide (e.selector = s)))

theorem eq_of_findIdx_eq {es : List Signature} {s t : Selector} (hs : s ∈ es.map (·.selector))
    (h : es.findIdx (·.selector = s) = es.findIdx (·.selector = t)) : s = t := by
  obtain ⟨e, he, hselector⟩ := List.mem_map.mp hs
  have hlt : es.findIdx (·.selector = s) < es.length :=
    List.findIdx_lt_length_of_exists ⟨e, he, decide_eq_true hselector⟩
  have ht : es.findIdx (·.selector = t) < es.length := h ▸ hlt
  calc
    s = es[es.findIdx (·.selector = s)].selector := (selector_findIdx hlt).symm
    _ = es[es.findIdx (·.selector = t)].selector := by simp only [h]
    _ = t := selector_findIdx ht

/-- A function of the dictionary is told by its place. -/
theorem eq_of_rank_eq {s t : Selector} (hs : s ∈ dictionary.map (·.selector))
    (h : rank s = rank t) : s = t :=
  eq_of_findIdx_eq hs h

end Signature

namespace Pattern

/-! ### Confidences are numbers -/

theorem isNaN_confidenceIn (s : Selector) (cs : List Char) :
    (confidenceIn s cs).isNaN = false := by
  have hbase : (if 1 < Text.occurrences (s.toList.drop 2) cs then baseConfidence + recurrenceBonus
      else baseConfidence).isNaN = false := by
    split
    · exact Binary64.isNaN_add (by decide +kernel) (by decide +kernel)
    · decide +kernel
  have hbonus : ∀ hint ∈ hints, hint.2.2.isFinite = true := by decide +kernel
  have hclamp {x : Binary64} (hx : x.isNaN = false) : (if 1 < x then 1 else x).isNaN = false := by
    split
    · decide +kernel
    · exact hx
  rw [confidenceIn]
  refine Binary64.isNaN_roundTo (hclamp ?_)
  split
  · next word bonus hlookup =>
      obtain ⟨before, after, hsplit, -⟩ := List.lookup_eq_some_iff.mp hlookup
      split
      · exact Binary64.isNaN_add hbase (hbonus (s, word, bonus) (by simp [hsplit]))
      · exact hbase
  · exact hbase

theorem isNaN_of_mem_classify {candidates : List Selector} {code : Option String} {p : Pattern}
    (h : p ∈ classify candidates code) : p.confidence.isNaN = false := by
  obtain ⟨_, -, e, -, rfl⟩ := Profile.mem_classify.mp h
  exact isNaN_confidenceIn e.selector _

/-! ### The order -/

/-- The first pattern is reported before the second: it has the higher confidence, or the same one
and the earlier place in the dictionary. -/
def Precedes (p q : Pattern) : Prop :=
  q.confidence ≤ p.confidence ∧
    (p.confidence ≤ q.confidence → Signature.rank p.selector < Signature.rank q.selector)

/-- The order of the report on patterns whose confidence is a number. -/
def ranksBeforeByUnits (p q : Pattern) : Bool :=
  q.confidence.units < p.confidence.units ||
    (q.confidence.units ≤ p.confidence.units &&
      Signature.rank p.selector ≤ Signature.rank q.selector)

theorem ranksBefore_eq {p q : Pattern} (hp : p.confidence.isNaN = false)
    (hq : q.confidence.isNaN = false) : ranksBefore p q = ranksBeforeByUnits p q := by
  have hlt : q.confidence < p.confidence ↔ q.confidence.units < p.confidence.units :=
    ⟨fun h => h.2.2, fun h => ⟨hq, hp, h⟩⟩
  have hle : ¬ p.confidence < q.confidence ↔ q.confidence.units ≤ p.confidence.units := by
    rw [Binary64.not_lt_iff hp hq, Binary64.le_iff_units hq hp]
  simp only [ranksBefore, ranksBeforeByUnits, hlt, ← decide_not, hle]

theorem ranksBeforeByUnits_trans (p q r : Pattern) (hpq : ranksBeforeByUnits p q = true)
    (hqr : ranksBeforeByUnits q r = true) : ranksBeforeByUnits p r = true := by
  simp only [ranksBeforeByUnits, Bool.or_eq_true, Bool.and_eq_true, decide_eq_true_eq] at *
  omega

theorem ranksBeforeByUnits_total (p q : Pattern) :
    (ranksBeforeByUnits p q || ranksBeforeByUnits q p) = true := by
  simp only [ranksBeforeByUnits, Bool.or_eq_true, Bool.and_eq_true, decide_eq_true_eq]
  omega

theorem pairwise_mergeSort_ranksBefore {ps : List Pattern}
    (h : ∀ p ∈ ps, p.confidence.isNaN = false) :
    (ps.mergeSort ranksBefore).Pairwise fun p q => ranksBeforeByUnits p q = true := by
  have hsame : ps.mergeSort ranksBefore = ps.mergeSort ranksBeforeByUnits := by
    simpa using List.map_mergeSort (f := id) fun p hp q hq => ranksBefore_eq (h p hp) (h q hq)
  rw [hsame]
  exact List.pairwise_mergeSort ranksBeforeByUnits_trans ranksBeforeByUnits_total ps

/-- Patterns are reported by confidence, from the highest one, and by place in the dictionary where
the confidence is the same. -/
theorem pairwise_precedes_classify (candidates : List Selector) (code : Option String) :
    (classify candidates code).Pairwise Precedes := by
  have hnumber {p : Pattern} (hp : p ∈ classify candidates code) : p.confidence.isNaN = false :=
    isNaN_of_mem_classify hp
  have hknown {p : Pattern} (hp : p ∈ classify candidates code) :
      p.selector ∈ Signature.dictionary.map (·.selector) := by
    obtain ⟨_, -, e, he, rfl⟩ := Profile.mem_classify.mp hp
    exact List.mem_map_of_mem (Signature.lookup?_eq_some he).1
  have hsorted : (classify candidates code).Pairwise fun p q => ranksBeforeByUnits p q = true :=
    pairwise_mergeSort_ranksBefore fun p hp => hnumber (List.mem_mergeSort.mpr hp)
  have hdifferent := List.pairwise_map.mp (Profile.nodup_selectors_classify candidates code)
  refine (hsorted.and hdifferent).imp_of_mem fun {p q} hp hq ⟨hranks, hne⟩ => ?_
  have hrank : Signature.rank p.selector ≠ Signature.rank q.selector :=
    fun h => hne (Signature.eq_of_rank_eq (hknown hp) h)
  simp only [ranksBeforeByUnits, Bool.or_eq_true, Bool.and_eq_true, decide_eq_true_eq] at hranks
  rw [Precedes, Binary64.le_iff_units (hnumber hq) (hnumber hp),
    Binary64.le_iff_units (hnumber hp) (hnumber hq)]
  omega

end Pattern

end ContractSurvey
