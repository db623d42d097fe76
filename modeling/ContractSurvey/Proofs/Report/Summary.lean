import ContractSurvey.Chart.Board
import ContractSurvey.Comparison.Insight
import ContractSurvey.Proofs.Number.Quantity
import ContractSurvey.Proofs.Report.Data
import ContractSurvey.Proofs.Sequence.Extreme
import ContractSurvey.Proofs.Sequence.Tally
import Mathlib.Data.Set.Card

/-!
# Proofs — Report — Summary

A comparison is summed up in three places: in the figures of its report, in those beside its charts
and in the insight into it.  Names that come again are left out in the same way whether they are
gathered contract by contract or all together (`gathered_eq_distinct`), so that their number is that
of the different names.  The contract marks from the largest to the smallest are sorted by places in
the order of quantities (`bySize_eq`), and their ends are the first contract of the greatest size
and the last one of the least (`exists_isFirstLargest`, `exists_isLastSmallest`).

The main statement is `summaries_agree`: the report and the charts have figures or refuse them
together, with the same error, and what they have in common with each other and with the insight is
the same.
-/

namespace ContractSurvey

/-! ### Names gathered in order -/

/-- The different ones of some names, each where it first appears. -/
structure Collected (names found : List String) : Prop where
  nodup : found.Nodup
  mem_iff (s : String) : s ∈ found ↔ s ∈ names
  order : found.Pairwise fun s t => names.idxOf s < names.idxOf t

/-- Enters a name behind those that were met, unless it was. -/
def addUnseen (seen : List String) (s : String) : List String :=
  if s ∈ seen then seen else seen ++ [s]

/-- The names of the standards, gathered contract by contract. -/
def gathered (ps : List Profile) : List String :=
  ps.foldl (fun seen p => p.standardNames.foldl addUnseen seen) []

theorem foldl_addUnseen_eq_distinct (names : List String) :
    names.foldl addUnseen [] = Sequence.distinct names := by
  induction names using List.reverseRecOn with
  | nil => rfl
  | append_singleton names s ih =>
      rw [List.foldl_append, ih, Sequence.distinct_concat, List.foldl_cons, List.foldl_nil,
        addUnseen]
      simp only [Sequence.mem_distinct]

theorem gathered_eq_distinct (ps : List Profile) :
    gathered ps = Sequence.distinct (ps.flatMap (·.standardNames)) := by
  rw [← foldl_addUnseen_eq_distinct, List.foldl_flatMap, gathered]

theorem pairwise_idxOf_distinct (names : List String) :
    (Sequence.distinct names).Pairwise fun s t => names.idxOf s < names.idxOf t := by
  induction names with
  | nil => exact .nil
  | cons a names ih =>
      have hother {s : String} (hs : s ∈ (Sequence.distinct names).filter (· ≠ a)) :
          (a :: names).idxOf s = names.idxOf s + 1 := by
        have hne : s ≠ a := by simpa using (List.mem_filter.mp hs).2
        exact List.idxOf_cons_ne names hne.symm
      refine List.pairwise_cons.mpr ⟨fun s hs => ?_, (ih.filter _).imp_of_mem ?_⟩
      · rw [hother hs, List.idxOf_cons_self]
        exact Nat.succ_pos _
      · intro s t hs ht hlt
        rw [hother hs, hother ht]
        exact Nat.succ_lt_succ hlt

theorem collected_distinct (names : List String) : Collected names (Sequence.distinct names) where
  nodup := Sequence.nodup_distinct names
  mem_iff _ := Sequence.mem_distinct
  order := pairwise_idxOf_distinct names

theorem length_distinct (names : List String) :
    (Sequence.distinct names).length = {s | s ∈ names}.ncard := by
  have hset : {s | s ∈ names} = ((Sequence.distinct names).toFinset : Set String) := by
    ext s
    simp
  rw [hset, Set.ncard_coe_finset, List.toFinset_card_of_nodup (Sequence.nodup_distinct names)]

/-! ### Contracts by size -/

namespace Profile

/-- The contract has a size, and the size is a number. -/
def IsSized (p : Profile) : Prop := ∃ q, p.size = some q ∧ q.isNumber = true

/-- Both contracts have a size, and the first one's is at most the second one's. -/
def AtMost (p q : Profile) : Prop := ∃ a b, p.size = some a ∧ q.size = some b ∧ a ≤ b

/-- Both contracts have a size, and the first one's is less than the second one's. -/
def Smaller (p q : Profile) : Prop := ∃ a b, p.size = some a ∧ q.size = some b ∧ a ≤ b ∧ ¬ b ≤ a

/-- The first one of the contracts of the greatest size. -/
def IsFirstLargest (ps : List Profile) (p : Profile) : Prop :=
  ∃ front rear, ps = front ++ p :: rear ∧ (∀ q ∈ front, q.Smaller p) ∧ ∀ q ∈ rear, q.AtMost p

/-- The last one of the contracts of the least size. -/
def IsLastSmallest (ps : List Profile) (p : Profile) : Prop :=
  ∃ front rear, ps = front ++ p :: rear ∧ (∀ q ∈ front, p.AtMost q) ∧ ∀ q ∈ rear, p.Smaller q

end Profile

namespace Chart

/-- The mark of a contract that has a size. -/
def mark (p : Profile) : ContractMark := ⟨p.name, p.address, p.size.getD (.whole 0)⟩

theorem ofProfile_of_isSome {p : Profile} (h : p.size.isSome = true) :
    ContractMark.ofProfile p = .ok (mark p) := by
  obtain ⟨q, hq⟩ := Option.isSome_iff_exists.mp h
  rw [ContractMark.ofProfile, mark, hq]
  rfl

section

variable {ps : List Profile} {p q : Profile}

theorem size_eq_mark (h : p.IsSized) :
    p.size = some (mark p).size ∧ (mark p).size.isNumber = true := by
  obtain ⟨a, hsize, hnumber⟩ := h
  rw [mark, hsize]
  exact ⟨rfl, hnumber⟩

theorem ofProfile_of_isSized (h : p.IsSized) : ContractMark.ofProfile p = .ok (mark p) :=
  ofProfile_of_isSome (Option.isSome_of_eq_some (size_eq_mark h).1)

/-- The order of contracts by the places of their sizes, the greatest first. -/
def sortsBefore (p q : Profile) : Bool := (mark q).size.place ≤ (mark p).size.place

theorem sortsBefore_trans (p q r : Profile) (hpq : sortsBefore p q = true)
    (hqr : sortsBefore q r = true) : sortsBefore p r = true :=
  decide_eq_true (Place.le_trans (of_decide_eq_true hqr) (of_decide_eq_true hpq))

theorem sortsBefore_total (p q : Profile) : (sortsBefore p q || sortsBefore q p) = true := by
  simpa [sortsBefore] using Place.le_total (mark q).size.place (mark p).size.place

theorem le_iff_sortsBefore (hp : p.IsSized) (hq : q.IsSized) :
    (mark q).size ≤ (mark p).size ↔ sortsBefore p q = true := by
  rw [Quantity.le_iff_place (size_eq_mark hq).2 (size_eq_mark hp).2, sortsBefore,
    decide_eq_true_iff]

theorem atMost_of_sortsBefore (hp : p.IsSized) (hq : q.IsSized) (h : sortsBefore p q = true) :
    q.AtMost p :=
  ⟨_, _, (size_eq_mark hq).1, (size_eq_mark hp).1, (le_iff_sortsBefore hp hq).mpr h⟩

theorem smaller_of_not_sortsBefore (hp : p.IsSized) (hq : q.IsSized)
    (h : ¬ sortsBefore p q = true) : p.Smaller q := by
  have hback : sortsBefore q p = true := by simpa [h] using sortsBefore_total p q
  exact ⟨_, _, (size_eq_mark hp).1, (size_eq_mark hq).1, (le_iff_sortsBefore hq hp).mpr hback,
    fun hle => h ((le_iff_sortsBefore hp hq).mp hle)⟩

/-- The marks from the largest to the smallest are those of the sorted contracts. -/
theorem bySize_map_mark (h : ∀ p ∈ ps, p.IsSized) :
    bySize (ps.map mark) = (ps.mergeSort sortsBefore).map mark := by
  have hsame : ∀ p ∈ ps, ∀ q ∈ ps,
      sortsBefore p q = decide ((mark q).size ≤ (mark p).size) := by
    intro p hp q hq
    rw [Bool.eq_iff_iff, decide_eq_true_iff, le_iff_sortsBefore (h p hp) (h q hq)]
  exact (List.map_mergeSort hsame).symm

theorem mergeSort_ne_nil (hne : ps ≠ []) : ps.mergeSort sortsBefore ≠ [] := by
  rw [← List.length_pos_iff, List.length_mergeSort]
  exact List.length_pos_iff.mpr hne

theorem exists_isFirstLargest (h : ∀ p ∈ ps, p.IsSized) (hne : ps ≠ []) :
    ∃ p, Profile.IsFirstLargest ps p ∧
      ContractMark.ofProfile p = .ok ((bySize (ps.map mark)).head?.getD {}) := by
  have hhead := List.head?_eq_some_head (mergeSort_ne_nil hne)
  obtain ⟨front, rear, hps, hfront, hrear⟩ :=
    Sequence.isFirstLeast_head sortsBefore_trans sortsBefore_total hhead
  rw [bySize_map_mark h, List.head?_map, hhead]
  generalize (ps.mergeSort sortsBefore).head _ = p at *
  subst hps
  rw [List.forall_mem_append, List.forall_mem_cons] at h
  obtain ⟨hfront', hp, hrear'⟩ := h
  exact ⟨p, ⟨front, rear, rfl,
    fun q hq => smaller_of_not_sortsBefore (hfront' q hq) hp (hfront q hq),
    fun q hq => atMost_of_sortsBefore hp (hrear' q hq) (hrear q hq)⟩, ofProfile_of_isSized hp⟩

theorem exists_isLastSmallest (h : ∀ p ∈ ps, p.IsSized) (hne : ps ≠ []) :
    ∃ p, Profile.IsLastSmallest ps p ∧
      ContractMark.ofProfile p = .ok ((bySize (ps.map mark)).getLast?.getD {}) := by
  have hlast := List.getLast?_eq_some_getLast (mergeSort_ne_nil hne)
  obtain ⟨front, rear, hps, hfront, hrear⟩ :=
    Sequence.isLastGreatest_getLast sortsBefore_trans sortsBefore_total hlast
  rw [bySize_map_mark h, List.getLast?_map, hlast]
  generalize (ps.mergeSort sortsBefore).getLast _ = p at *
  subst hps
  rw [List.forall_mem_append, List.forall_mem_cons] at h
  obtain ⟨hfront', hp, hrear'⟩ := h
  exact ⟨p, ⟨front, rear, rfl,
    fun q hq => atMost_of_sortsBefore (hfront' q hq) hp (hfront q hq),
    fun q hq => smaller_of_not_sortsBefore hp (hrear' q hq) (hrear q hq)⟩, ofProfile_of_isSized hp⟩

end

/-! ### The figures beside the charts -/

/-- There is a total only where no size is missing. -/
theorem isSome_of_foldlM_plus {terms : List (Option Quantity)} {p q : Quantity}
    (h : terms.foldlM Quantity.plus p = .ok q) : ∀ t ∈ terms, t.isSome = true := by
  induction terms generalizing p with
  | nil => simp
  | cons t terms ih =>
      rw [List.foldlM_cons] at h
      obtain ⟨r, hr, hrest⟩ := bind_eq_ok_iff.mp h
      refine List.forall_mem_cons.mpr ⟨?_, ih hrest⟩
      cases t with
      | none => cases p <;> cases hr
      | some t => rfl

variable {ps : List Profile}

theorem mapM_ofProfile {total : Quantity} (h : totalSize ps = .ok total) :
    ps.mapM ContractMark.ofProfile = .ok (ps.map mark) :=
  mapM_eq_ok fun _ hp =>
    ofProfile_of_isSome (isSome_of_foldlM_plus h _ (List.mem_map_of_mem hp))

theorem averageSize_of_ne_nil (hne : ps ≠ []) : averageSize ps = do
    let total ← totalSize ps
    let mean ← total.quotient (.whole ps.length)
    return mean.roundTo 2 :=
  if_neg (by simpa using hne)

/-- Where there is no total, there is no mean, for the same reason. -/
theorem averageSize_of_totalSize {e : QuantityError} (h : totalSize ps = .error e) :
    averageSize ps = .error e := by
  have hne : ps ≠ [] := by
    rintro rfl
    cases h
  rw [averageSize_of_ne_nil hne, h]
  rfl

/-- The figures of some contracts, from the total and the mean of their sizes. -/
def metricsOf (ps : List Profile) (total : Quantity) (mean : Binary64) : Metrics where
  contracts := ps.length
  totalSize := total
  averageSize := mean
  largest := (bySize (ps.map mark)).head?.getD {}
  smallest := (bySize (ps.map mark)).getLast?.getD {}
  standards := gathered ps
  secured := ps.countP fun p => !p.security.isEmpty
  proxies := ps.countP (·.isProxy)

theorem metrics_of_totalSize {total : Quantity} (h : totalSize ps = .ok total) :
    metrics ps = (averageSize ps).map (metricsOf ps total) := by
  rw [metrics, h, mapM_ofProfile h, ok_bind]
  cases averageSize ps with
  | error e => rfl
  | ok mean =>
      simp only [ok_bind, pure_eq_ok, Except.map, metricsOf, gathered_eq_distinct,
        List.countP_eq_length_filter]

theorem metrics_of_totalSize_error {e : QuantityError} (h : totalSize ps = .error e) :
    metrics ps = .error e := by
  rw [metrics, h]
  rfl

/-- Only the mean of the sizes can be missing. -/
theorem metrics_eq_error_iff {e : QuantityError} :
    metrics ps = .error e ↔ averageSize ps = .error e := by
  cases htotal : totalSize ps with
  | error e' =>
      rw [metrics_of_totalSize_error htotal, averageSize_of_totalSize htotal]
      simp only [Except.error.injEq]
  | ok total =>
      rw [metrics_of_totalSize htotal]
      cases averageSize ps <;> simp [Except.map]

theorem metrics_eq_ok_iff {m : Metrics} : metrics ps = .ok m ↔ ∃ total mean,
    totalSize ps = .ok total ∧ averageSize ps = .ok mean ∧ m = metricsOf ps total mean := by
  cases htotal : totalSize ps with
  | error e =>
      rw [metrics_of_totalSize_error htotal]
      exact iff_of_false nofun fun ⟨_, _, h, _⟩ => nomatch h
  | ok total =>
      rw [metrics_of_totalSize htotal, map_eq_ok_iff]
      simp [eq_comm]

end Chart

/-! ### The three summaries -/

namespace Comparison

/-- The figures of a report, from those beside the charts and from the insight. -/
def figuresFrom (c : Comparison) (m : Chart.Metrics) (i : Insight) : Json :=
  .object
    [("total_contracts", .int m.contracts),
     ("total_similarities", .int c.similarities.length),
     ("total_relationships", .int i.relationships),
     ("average_size", .float m.averageSize),
     ("standards_found", .ofTexts m.standards),
     ("security_features_found",
       .ofTexts (Sequence.distinct (c.profiles.flatMap (·.security)))),
     ("proxy_contracts_count", .int m.proxies)]

/-- What the figures beside the charts of a comparison say, and where they come again. -/
structure SummedUp (c : Comparison) (m : Chart.Metrics) : Prop where
  figures : Report.figures c = .ok (figuresFrom c m (Insight.of c))
  data (now : Moment) (given : List (String × Json)) (d : Json) :
    Report.data c now given = .ok d → ∃ contracts,
      d = Report.whole c now given (figuresFrom c m (Insight.of c)) contracts
  contracts : m.contracts = c.profiles.length ∧ (Insight.of c).contracts = m.contracts
  proxies : m.proxies = c.profiles.countP (·.isProxy) ∧ (Insight.of c).proxies = m.proxies
  relationships : (Insight.of c).relationships = c.relationships.length
  gathered : m.standards = gathered c.profiles
  collected : Collected (c.profiles.flatMap (·.standardNames)) m.standards
  standards : (Insight.of c).standards = m.standards.length ∧
    m.standards.length = {s | ∃ p ∈ c.profiles, s ∈ p.standardNames}.ncard
  averageSize : c.profiles ≠ [] → ∃ mean,
    m.totalSize.quotient (.whole c.profiles.length) = .ok mean ∧ m.averageSize = mean.roundTo 2
  empty : c.profiles = [] → m.averageSize = 0 ∧ m.largest = {} ∧ m.smallest = {}
  largest : c.profiles ≠ [] → (∀ p ∈ c.profiles, p.IsSized) → ∃ p,
    Profile.IsFirstLargest c.profiles p ∧ Chart.ContractMark.ofProfile p = .ok m.largest
  smallest : c.profiles ≠ [] → (∀ p ∈ c.profiles, p.IsSized) → ∃ p,
    Profile.IsLastSmallest c.profiles p ∧ Chart.ContractMark.ofProfile p = .ok m.smallest

theorem length_gathered (ps : List Profile) :
    (gathered ps).length = {s | ∃ p ∈ ps, s ∈ p.standardNames}.ncard := by
  have hset : {s | ∃ p ∈ ps, s ∈ p.standardNames} = {s | s ∈ ps.flatMap (·.standardNames)} :=
    Set.ext fun s => List.mem_flatMap.symm
  rw [hset, gathered_eq_distinct, length_distinct]

theorem summedUp {c : Comparison} {total : Quantity} {mean : Binary64}
    (htotal : Chart.totalSize c.profiles = .ok total)
    (hmean : Chart.averageSize c.profiles = .ok mean) :
    c.SummedUp (Chart.metricsOf c.profiles total mean) := by
  have hgathered := gathered_eq_distinct c.profiles
  have hfigures : Report.figures c =
      .ok (figuresFrom c (Chart.metricsOf c.profiles total mean) (Insight.of c)) := by
    rw [Report.figures, hmean, figuresFrom, Chart.metricsOf, hgathered,
      List.countP_eq_length_filter (p := fun p : Profile => p.isProxy)]
    rfl
  exact {
    figures := hfigures
    data := fun now given d hd => by
      obtain ⟨summary, contracts, hsummary, -, rfl⟩ := Report.data_eq_ok_iff.mp hd
      obtain rfl := Except.ok.inj (hfigures.symm.trans hsummary)
      exact ⟨contracts, rfl⟩
    contracts := ⟨rfl, rfl⟩
    proxies := ⟨rfl, List.countP_eq_length_filter.symm⟩
    relationships := rfl
    gathered := rfl
    collected := by
      rw [Chart.metricsOf, hgathered]
      exact collected_distinct _
    standards := ⟨(congrArg List.length hgathered).symm, length_gathered c.profiles⟩
    averageSize := fun hne => by
      rw [Chart.averageSize_of_ne_nil hne, htotal, ok_bind] at hmean
      obtain ⟨x, hx, hround⟩ := bind_eq_ok_iff.mp hmean
      exact ⟨x, hx, (Except.ok.inj hround).symm⟩
    empty := fun hnil => by
      rw [hnil] at hmean ⊢
      exact ⟨(Except.ok.inj hmean).symm, by simp [Chart.metricsOf, Chart.bySize]⟩
    largest := fun hne hsized => Chart.exists_isFirstLargest hsized hne
    smallest := fun hne hsized => Chart.exists_isLastSmallest hsized hne }

/-- **The summaries of a comparison.**  The report has figures exactly where the charts have some,
and is refused for the same reason where they are; whole sizes below half the range of the doubles
are never refused.  The numbers of contracts and of proxies, the mean of the sizes and the standards
are the same wherever they are given, and so is the number of relationships.  The largest contract
is the first one of the greatest size, the smallest the last one of the least size. -/
theorem summaries_agree (c : Comparison) :
    (∀ e, Report.figures c = .error e ↔ Chart.metrics c.profiles = .error e) ∧
    (∀ m, Chart.metrics c.profiles = .ok m → c.SummedUp m) ∧
    ∀ k ≤ 1023, (∀ p ∈ c.profiles, ∃ n : Int, n.natAbs < 2 ^ k ∧ p.size = some (.whole n)) →
      ∃ m, Chart.metrics c.profiles = .ok m := by
  refine ⟨fun e => ?_, fun m hm => ?_, fun k hk hwhole => ?_⟩
  · rw [Chart.metrics_eq_error_iff, Report.figures]
    cases Chart.averageSize c.profiles <;> simp [Except.map]
  · obtain ⟨total, mean, htotal, hmean, rfl⟩ := Chart.metrics_eq_ok_iff.mp hm
    exact summedUp htotal hmean
  · obtain ⟨mean, hmean⟩ := Chart.exists_averageSize hk hwhole
    cases hm : Chart.metrics c.profiles with
    | error e =>
        rw [Chart.metrics_eq_error_iff, hmean] at hm
        cases hm
    | ok m => exact ⟨m, rfl⟩

/-- Four contracts, two of each size, one of them measured; two standards come again. -/
def tied : Comparison where
  profiles :=
    [{ address := "0xa", name := some "a", size := some (.whole 2),
       standards := [⟨"ERC20", none, [], []⟩] },
     { address := "0xb", name := some "b", size := some (.whole 7),
       standards := [⟨"ERC721", none, [], []⟩, ⟨"ERC20", none, [], []⟩] },
     { address := "0xc", name := some "c", size := some (.measured 7), proxyKind := some .uups },
     { address := "0xd", name := some "d", size := some (.whole 2),
       standards := [⟨"ERC721", none, [], []⟩] }]

/-- The sizes are numbers, so that one contract is the largest and one the smallest. -/
theorem summaries_agree_tied : ∃ m, Chart.metrics tied.profiles = .ok m ∧ tied.SummedUp m ∧
    (tied.profiles ≠ [] ∧ ∀ p ∈ tied.profiles, p.IsSized) ∧
    (∃ p, Profile.IsFirstLargest tied.profiles p ∧
      Chart.ContractMark.ofProfile p = .ok m.largest) ∧
    (∃ p, Profile.IsLastSmallest tied.profiles p ∧
      Chart.ContractMark.ofProfile p = .ok m.smallest) ∧
    m.standards = ["ERC20", "ERC721"] ∧ m.proxies = 1 ∧ m.averageSize = 4.5 := by
  have htotal : Chart.totalSize tied.profiles = .ok (.measured 18) := by decide +kernel
  have hmean : Chart.averageSize tied.profiles = .ok 4.5 := by decide +kernel
  have hmetrics : Chart.metrics tied.profiles =
      .ok (Chart.metricsOf tied.profiles (.measured 18) 4.5) :=
    Chart.metrics_eq_ok_iff.mpr ⟨_, _, htotal, hmean, rfl⟩
  have hsized : ∀ p ∈ tied.profiles, p.IsSized := by
    simp only [tied, List.forall_mem_cons, List.not_mem_nil, false_implies, implies_true]
    exact ⟨⟨_, rfl, rfl⟩, ⟨_, rfl, rfl⟩, ⟨_, rfl, by decide +kernel⟩, ⟨_, rfl, rfl⟩, trivial⟩
  have hsummed := (summaries_agree tied).2.1 _ hmetrics
  exact ⟨_, hmetrics, hsummed, ⟨nofun, hsized⟩, hsummed.largest nofun hsized,
    hsummed.smallest nofun hsized, by decide +kernel, by decide +kernel, rfl⟩

end Comparison

end ContractSurvey
