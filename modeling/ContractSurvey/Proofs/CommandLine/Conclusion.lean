import ContractSurvey.Proofs.CommandLine.Screen
import ContractSurvey.Proofs.CommandLine.Spelling
import ContractSurvey.Proofs.Node.Steady

/-!
# Proofs — CommandLine — Conclusion

What a comparison on the command line comes to.  Whatever the node answers about codes, it comes to
an end of its own (`Concluded`), unless something that is to be shown is withheld or the number of
the chain has no text (`BrokenOff`).  Of its own it ends with code 0 if the codes of two addresses
were fetched that differ up to letter case, and with code 1 if not.  Its failed addresses are those
of the batch, because an address that is not among these was fetched (`failed_of_comparisonOf`).
A node that gave no code is not asked for its chain (`chain_not_mem_questions_compare`).

The main statement is `concluded_or_brokenOff_compare`.
-/

namespace ContractSurvey.CommandLine

variable {σ : Type} {s : Surroundings σ} {f : Fetcher σ Binary64} {r : CompareRequest}
  {l : Line σ Binary64} {network : Option String} {c : Comparison}

/-! ### The network -/

/-- Only a number that is too long leaves a chain without a name. -/
theorem chainName_eq_error {id : Option Int} {d : DigitError} (h : chainName id = .error d) :
    ∃ n, id = some n ∧ ¬ Whole.IsShort n := by
  unfold chainName at h
  split at h
  · cases h
  · cases h
  · cases h
  · next n _ _ _ =>
      refine ⟨n, rfl, fun hshort => ?_⟩
      rw [Whole.text_eq_ok_iff.mpr ⟨hshort, rfl⟩] at h
      cases h
  · cases h

/-- A name is missing because the node failed or the number that it gave has no text. -/
theorem networkName_eq_error {e : ChainError} (h : (f.networkName l).1 = .error e) :
    (∃ st fault, (f.node.chain st).1.result = .error fault ∧ e = .node fault) ∨
      ∃ st id d, (f.node.chain st).1.result = .ok (some id) ∧ ¬ Whole.IsShort id ∧
        e = .digits d := by
  have hname : (f.networkName l).1 =
      ((f.node.chain (l.pause f.interval).node).1.result.mapError ChainError.node).bind
        fun id => (chainName id).mapError .digits := rfl
  rw [hname] at h
  cases hanswer : (f.node.chain (l.pause f.interval).node).1.result with
  | error fault =>
      rw [hanswer] at h
      cases h
      exact .inl ⟨_, fault, hanswer, rfl⟩
  | ok id =>
      rw [hanswer] at h
      cases hchain : chainName id with
      | ok name => simp [Except.mapError, Except.bind, hchain] at h
      | error d =>
          obtain ⟨n, rfl, hlong⟩ := chainName_eq_error hchain
          simp only [Except.mapError, Except.bind, hchain, Except.error.injEq] at h
          exact .inr ⟨_, n, d, hanswer, hlong, h.symm⟩

/-- A node is not asked for its chain if there are no codes. -/
theorem networkFor_of_codes_eq_nil {batch : Batch} (h : batch.codes = []) (given : Option String)
    (l : Line σ Binary64) : networkFor f given batch l = (.ok (given, []), l) := by
  rw [networkFor, if_pos (by simp [h])]

/-- A node that tells its chain or is not reached lets the comparison go on, and nothing is noted
but that it was not reached. -/
theorem networkFor_cases
    (hchain : ∀ st e, (f.node.chain st).1.result = .error e → e.isTransport = true)
    (given : Option String) (batch : Batch) (l : Line σ Binary64) :
    (∃ network notes, (networkFor f given batch l).1 = .ok (network, notes) ∧
      ∀ x ∈ notes, ∃ st fault, (f.node.chain st).1.result = .error fault ∧
        x = coloured "yellow" ("无法识别网络: " ++ fault.message)) ∨
    ∃ st id d, (f.node.chain st).1.result = .ok (some id) ∧ ¬ Whole.IsShort id ∧
      (networkFor f given batch l).1 = .error (.digits d) := by
  rw [networkFor]
  split
  · exact .inl ⟨given, [], rfl, by simp⟩
  · split
    · next name _ _ => exact .inl ⟨some name, [], rfl, by simp⟩
    · next e _ herror =>
        rcases networkName_eq_error (congrArg Prod.fst herror) with
          ⟨st, fault, hanswer, rfl⟩ | ⟨st, id, d, hanswer, hlong, rfl⟩
        · have htransport : (ChainError.node fault).isTransport = true := hchain st fault hanswer
          rw [if_pos htransport]
          refine .inl ⟨none, _, rfl, fun x hx => ⟨st, fault, hanswer, ?_⟩⟩
          exact List.mem_singleton.mp hx
        · exact .inr ⟨st, id, d, hanswer, hlong, rfl⟩

/-! ### The comparison -/

/-- The codes of two addresses were fetched that differ up to letter case. -/
def TwoFetched (outcomes : List (String × Except FetchError String)) : Prop :=
  ∃ o ∈ outcomes, ∃ p ∈ outcomes,
    o.2.isOk = true ∧ p.2.isOk = true ∧ Text.lower o.1 ≠ Text.lower p.1

instance (outcomes : List (String × Except FetchError String)) : Decidable (TwoFetched outcomes) :=
  inferInstanceAs (Decidable (∃ o ∈ outcomes, ∃ p ∈ outcomes,
    o.2.isOk = true ∧ p.2.isOk = true ∧ Text.lower o.1 ≠ Text.lower p.1))

theorem two_le_length_iff {α : Type} {as : List α} (h : as.Nodup) :
    2 ≤ as.length ↔ ∃ a ∈ as, ∃ b ∈ as, a ≠ b := by
  match as with
  | [] => simp
  | [a] => simp
  | a :: b :: as =>
      have hab : a ≠ b := fun e => (List.nodup_cons.mp h).1 (e ▸ List.mem_cons_self)
      refine iff_of_true (by simp) ⟨a, by simp, b, by simp, hab⟩

/-- The failed addresses of a comparison are those of the batch. -/
theorem failed_of_comparisonOf {settings : Settings}
    (hc : comparisonOf settings r (f.codes r.addresses r.block l).1 network = .ok c) :
    c.failed = (f.codes r.addresses r.block l).1.failures.keys := by
  -- an address is among the codes or among the failures, and one with a code has a profile
  have hcode : ∀ p ∈ (f.codes r.addresses r.block l).1.codes,
      Bytecode.isEmpty (some p.2) = false := fun p hp => (Fetcher.code_eq_ok_of_mem_codes hp).2
  rw [Comparison.eq_outcome_of_ofCodes hc, Comparison.outcome_failed]
  refine Comparison.allFailed_eq fun q hq hnone => ?_
  obtain ⟨a, ha, rfl⟩ := List.mem_map.mp hq
  rcases (Fetcher.mem_codes_or_mem_failures_iff (f := f) (l := l)).mpr ha with hfetched | hfailed
  · have hsome := (hasCode_offered hcode).mpr ⟨a, hfetched, rfl⟩
    exact absurd (hsome.symm.trans hnone) (by decide)
  · exact hfailed

/-- A comparison has two contracts exactly if two addresses were fetched. -/
theorem isComparable_of_comparisonOf {settings : Settings}
    (hc : comparisonOf settings r (f.codes r.addresses r.block l).1 network = .ok c) :
    c.isComparable = true ↔ TwoFetched (f.outcomes r.block r.addresses l) := by
  obtain ⟨c', hc', hnodup, hprofiles, hfetched⟩ :=
    exists_comparisonOf_eq_ok settings r f l network
  obtain rfl := Except.ok.inj (hc'.symm.trans hc)
  have hlength : (Comparison.keys c'.profiles).length = c'.profiles.length := List.length_map ..
  -- the contracts are the fetched addresses, up to letter case
  have hkeys (k : String) : k ∈ Comparison.keys c'.profiles ↔
      ∃ o ∈ f.outcomes r.block r.addresses l, o.2.isOk = true ∧ Text.lower o.1 = k := by
    constructor
    · intro hk
      obtain ⟨p, hp, rfl⟩ := List.mem_map.mp hk
      obtain ⟨a, ha, hlower⟩ := hprofiles p hp
      obtain ⟨o, ho, rfl, hok⟩ := Fetcher.mem_codes_iff.mp ha
      exact ⟨o, ho, hok, hlower⟩
    · rintro ⟨o, ho, hok, rfl⟩
      obtain ⟨p, hp, hlower⟩ := hfetched o.1 (Fetcher.mem_codes_iff.mpr ⟨o, ho, rfl, hok⟩)
      exact List.mem_map.mpr ⟨p, hp, hlower⟩
  rw [Comparison.eq_outcome_of_ofCodes hc, Comparison.isComparable_outcome, ← hlength,
    two_le_length_iff hnodup, TwoFetched]
  constructor
  · rintro ⟨a, ha, b, hb, hne⟩
    obtain ⟨o, ho, hok, rfl⟩ := (hkeys a).mp ha
    obtain ⟨p, hp, hpok, rfl⟩ := (hkeys b).mp hb
    exact ⟨o, ho, p, hp, hok, hpok, hne⟩
  · rintro ⟨o, ho, p, hp, hok, hpok, hne⟩
    exact ⟨_, (hkeys _).mpr ⟨o, ho, hok, rfl⟩, _, (hkeys _).mpr ⟨p, hp, hpok, rfl⟩, hne⟩

/-- All that is shown of a comparison. -/
def display (c : Comparison) (threshold : Binary64) : List (Except QuantityError Shown) :=
  if c.isComparable then
    summaryDisplay c ++ plainly (pairDisplay c) ++ plainly (groupDisplay c threshold)
  else plainly [coloured "red" "可用合约少于2个，无法比较"]

/-- A comparison without a report is shown, and its code says whether there were two contracts. -/
theorem comparisonActs_eq {threshold : Binary64} (hthreshold : r.familyThreshold = some threshold)
    (hreport : r.report.getD "" = "") :
    comparisonActs s r c =
      presentThen s (display c threshold) ([], if c.isComparable then .exit 0 else .exit 1) := by
  have hnothing : reportActs s r c = ([], .exit 0) := by
    rw [reportActs]
    cases hfile : r.report with
    | none => rfl
    | some path =>
        obtain rfl : path = "" := by simpa [hfile] using hreport
        rfl
  rw [comparisonActs, display]
  split
  · rw [thresholdFor, hthreshold]
    dsimp only
    rw [hnothing]
    simp only [presentThen_append]
  · rfl

/-- A comparison that comes to an end of its own. -/
structure Concluded (s : Surroundings σ) (f : Fetcher σ Binary64) (r : CompareRequest)
    (l : Line σ Binary64) (o : Outcome σ) : Prop where
  ending : o.ending = .exit 0 ∧ TwoFetched (f.outcomes r.block r.addresses l) ∨
    o.ending = .exit 1 ∧ ¬ TwoFetched (f.outcomes r.block r.addresses l)
  /-- The comparison that is shown has failed for the addresses of the batch's failures. -/
  failed : ∃ network notes c,
    comparisonOf s.settings r (f.codes r.addresses r.block l).1 network = .ok c ∧
      c.failed = (f.codes r.addresses r.block l).1.failures.keys ∧
      o.acts = prints (failureLines (f.codes r.addresses r.block l).1) ++ prints notes ++
        (comparisonActs s r c).1

/-- How a comparison is broken off: something that is to be shown is withheld, or the number of the
chain has no text. -/
inductive BrokenOff (s : Surroundings σ) (f : Fetcher σ Binary64) (r : CompareRequest)
    (l : Line σ Binary64) : Ending → Prop
  | failures {failure : Failure}
      (withheld : Withheld s (plainly (failureLines (f.codes r.addresses r.block l).1)) failure) :
      BrokenOff s f r l (.failed failure)
  | chain {st : σ} {id : Int} {d : DigitError}
      (answered : (f.node.chain st).1.result = .ok (some id))
      (long : ¬ Whole.IsShort id) : BrokenOff s f r l (.failed (.chain (.digits d)))
  | network {st : σ} {fault : NodeFault} {message : String}
      (answered : (f.node.chain st).1.result = .error fault)
      (refuses : s.screen (coloured "yellow" ("无法识别网络: " ++ fault.message)) = some message) :
      BrokenOff s f r l (.failed (.screen message))
  | comparison {network : Option String} {c : Comparison} {threshold : Binary64} {failure : Failure}
      (compared : comparisonOf s.settings r (f.codes r.addresses r.block l).1 network = .ok c)
      (given : r.familyThreshold = some threshold)
      (withheld : Withheld s (display c threshold) failure) : BrokenOff s f r l (.failed failure)

/-- Once the network is known, or known to be unknown, a comparison ends as its display does. -/
theorem networkActs_cases {batch : Batch} {threshold : Binary64}
    (hthreshold : r.familyThreshold = some threshold) (hreport : r.report.getD "" = "")
    (hc : comparisonOf s.settings r batch network = .ok c) (notes : List Shown) :
    (∃ failure, Withheld s (plainly notes) failure ∧
      (networkActs s r batch (.ok (network, notes))).2 = .failed failure) ∨
    (∃ failure, Withheld s (display c threshold) failure ∧
      (networkActs s r batch (.ok (network, notes))).2 = .failed failure) ∨
    networkActs s r batch (.ok (network, notes)) =
      (prints notes ++ (comparisonActs s r c).1, if c.isComparable then .exit 0 else .exit 1) := by
  have hacts : networkActs s r batch (.ok (network, notes)) =
      presentThen s (plainly notes) (comparisonActs s r c) := by
    rw [networkActs, hc]
  rw [hacts]
  rcases presentThen_cases s (plainly notes) (comparisonActs s r c) with
    ⟨failure, hwithheld, hstop⟩ | ⟨hshown, hgoes⟩
  · exact .inl ⟨failure, hwithheld, by rw [hstop]⟩
  · have hnotes : (present s (plainly notes)).1 = prints notes :=
      acts_of_present (Prod.ext rfl hshown)
    rw [hgoes, hnotes, comparisonActs_eq hthreshold hreport]
    rcases presentThen_cases s (display c threshold)
      ([], if c.isComparable then Ending.exit 0 else .exit 1) with
      ⟨failure, hwithheld, hstop⟩ | ⟨-, hend⟩
    · exact .inr (.inl ⟨failure, hwithheld, by rw [hstop]⟩)
    · exact .inr (.inr (by rw [hend]))

/-- A comparison stops at the addresses that failed, or goes on to the network. -/
theorem compare_cases (hf : fetcherAt s r.url.text? = .ok f) {batch : Batch}
    {l' : Line σ Binary64} (hcodes : f.codes r.addresses r.block l = (batch, l')) :
    (∃ failure acts, Withheld s (plainly (failureLines batch)) failure ∧
      compare s r l = ⟨acts, some r.url, l', .failed failure⟩) ∨
    compare s r l =
      ⟨prints (failureLines batch) ++
          (networkActs s r batch (networkFor f r.network batch l').1).1,
        some r.url, (networkFor f r.network batch l').2,
        (networkActs s r batch (networkFor f r.network batch l').1).2⟩ := by
  rw [compare, hf]
  dsimp only
  rw [hcodes]
  dsimp only
  split
  · next acts failure hstop => exact .inl ⟨failure, acts, withheld_of_present hstop, rfl⟩
  · next acts hgoes => exact .inr (by rw [acts_of_present hgoes])

/-- A comparison that is shown in full comes to an end of its own. -/
theorem concluded_of_comparisonOf {o : Outcome σ} {notes : List Shown}
    (hc : comparisonOf s.settings r (f.codes r.addresses r.block l).1 network = .ok c)
    (hacts : o.acts = prints (failureLines (f.codes r.addresses r.block l).1) ++ prints notes ++
      (comparisonActs s r c).1)
    (hending : o.ending = if c.isComparable then .exit 0 else .exit 1) : Concluded s f r l o where
  ending := by
    rw [hending, ← isComparable_of_comparisonOf hc]
    by_cases hcomparable : c.isComparable = true
    · exact .inl ⟨if_pos hcomparable, hcomparable⟩
    · exact .inr ⟨if_neg hcomparable, hcomparable⟩
  failed := ⟨network, notes, c, hc, failed_of_comparisonOf hc, hacts⟩

/-- **A comparison** comes to an end of its own or is broken off. -/
theorem concluded_or_brokenOff_compare (hf : fetcherAt s r.url.text? = .ok f)
    (hchain : ∀ st e, (f.node.chain st).1.result = .error e → e.isTransport = true)
    (hthreshold : r.familyThreshold.isSome = true) (hreport : r.report.getD "" = "")
    (l : Line σ Binary64) :
    Concluded s f r l (compare s r l) ∨ BrokenOff s f r l (compare s r l).ending := by
  obtain ⟨threshold, hthreshold⟩ := Option.isSome_iff_exists.mp hthreshold
  have hcodes : f.codes r.addresses r.block l =
      ((f.codes r.addresses r.block l).1, (f.codes r.addresses r.block l).2) := rfl
  -- the addresses that failed are shown first, and only then is the network asked for
  rcases compare_cases hf hcodes with ⟨failure, acts, hwithheld, hcompare⟩ | hcompare
  · rw [hcompare]
    exact .inr (.failures hwithheld)
  rw [hcompare]
  rcases networkFor_cases hchain r.network (f.codes r.addresses r.block l).1
    (f.codes r.addresses r.block l).2 with
    ⟨network, notes, hnetwork, hnotes⟩ | ⟨st, id, d, hanswer, hlong, hnetwork⟩
  · obtain ⟨c, hc, -⟩ := exists_comparisonOf_eq_ok s.settings r f l network
    rw [hnetwork]
    rcases networkActs_cases hthreshold hreport hc notes with
      ⟨failure, hwithheld, hstop⟩ | ⟨failure, hwithheld, hstop⟩ | hend
    · obtain ⟨x, hx, message, hrefused, rfl⟩ := hwithheld.of_plainly
      obtain ⟨st, fault, hanswer, rfl⟩ := hnotes x hx
      rw [hstop]
      exact .inr (.network hanswer hrefused)
    · rw [hstop]
      exact .inr (.comparison hc hthreshold hwithheld)
    · rw [hend]
      exact .inl (concluded_of_comparisonOf hc (List.append_assoc ..).symm rfl)
  · rw [hnetwork]
    exact .inr (.chain hanswer hlong)

/-- Without an outcome that is a code, the batch has none. -/
theorem codes_eq_nil {addresses : List String} {block : Option Block}
    (h : ∀ p ∈ f.outcomes block addresses l, p.2.isOk = false) :
    (f.codes addresses block l).1.codes = [] := by
  have hkeys : ∀ a, a ∉ (f.codes addresses block l).1.codes.keys := by
    intro a ha
    obtain ⟨p, hp, -, hok⟩ := Fetcher.mem_codes_iff.mp ha
    rw [h p hp] at hok
    cases hok
  exact List.map_eq_nil_iff.mp (List.eq_nil_iff_forall_not_mem.mpr hkeys)

theorem chain_not_mem_questions (addresses : List String) (block : Option Block) :
    Question.chain ∉ addresses.filterMap (f.question? block) := by
  intro h
  obtain ⟨a, -, ha⟩ := List.mem_filterMap.mp h
  obtain ⟨c, -, hc⟩ := Option.map_eq_some_iff.mp ha
  cases hc

/-- A node that gave no code is not asked for its chain. -/
theorem chain_not_mem_questions_compare (hf : fetcherAt s r.url.text? = .ok f)
    (h : ∀ p ∈ f.outcomes r.block r.addresses l, p.2.isOk = false) :
    ∃ qs, questions (compare s r l).line.events = questions l.events ++ qs ∧
      Question.chain ∉ qs := by
  have hcodes : f.codes r.addresses r.block l =
      ((f.codes r.addresses r.block l).1, (f.codes r.addresses r.block l).2) := rfl
  have hline : (compare s r l).line = (f.codes r.addresses r.block l).2 := by
    rcases compare_cases hf hcodes with ⟨failure, acts, -, hcompare⟩ | hcompare
    · rw [hcompare]
    · rw [hcompare, networkFor_of_codes_eq_nil (codes_eq_nil h)]
  refine ⟨_, by rw [hline, Fetcher.questions_codes], ?_⟩
  exact chain_not_mem_questions r.addresses r.block

end ContractSurvey.CommandLine
