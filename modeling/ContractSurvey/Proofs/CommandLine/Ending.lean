import ContractSurvey.Proofs.CommandLine.Asking
import ContractSurvey.Proofs.CommandLine.Conclusion
import ContractSurvey.Proofs.CommandLine.TagReader

/-!
# Proofs — CommandLine — Ending

How a comparison on the command line ends.  It relies on a screen that takes all that is shown
(`Taken`) and on sizes that can be shown (`Sized`); with these nothing is withheld, and it comes to
an end of its own (`not_brokenOff`).  A screen that reads tags is only known to take paired texts
(`TakesPaired`).  That is enough if no closing tag starts in what comes from outside, the addresses
and what the node says, because what the program itself writes is paired (`taken_of_untagged`).

An ending with code 1 leaves no file behind, in whatever was asked for
(`exists_print_of_exit_one`).

The main statement is `run_compare`.
-/

namespace ContractSurvey.CommandLine

variable {σ : Type} {s : Surroundings σ} {f : Fetcher σ Binary64} {r : CompareRequest}
  {l : Line σ Binary64} {network : Option String} {c : Comparison}

/-! ### What is not withheld -/

/-- The screen takes all that a comparison shows. -/
structure Taken (s : Surroundings σ) (f : Fetcher σ Binary64) (r : CompareRequest)
    (l : Line σ Binary64) : Prop where
  failures : ∀ x ∈ failureLines (f.codes r.addresses r.block l).1, s.screen x = none
  network : ∀ st fault, (f.node.chain st).1.result = .error fault →
    s.screen (coloured "yellow" ("无法识别网络: " ++ fault.message)) = none
  comparison : ∀ network c threshold,
    comparisonOf s.settings r (f.codes r.addresses r.block l).1 network = .ok c →
      ∀ x, .ok x ∈ display c threshold → s.screen x = none

/-- What the node gives has a size that can be shown: the numbers of its chain have texts, and its
codes are no longer than the memory of any machine. -/
structure Sized (f : Fetcher σ Binary64) (r : CompareRequest) (l : Line σ Binary64) : Prop where
  ids : ∀ st id, (f.node.chain st).1.result = .ok (some id) → Whole.IsShort id
  codes : ∀ p ∈ (f.codes r.addresses r.block l).1.codes, p.2.length < 2 ^ 63

section

variable {settings : Settings}
  (hc : comparisonOf settings r (f.codes r.addresses r.block l).1 network = .ok c)
include hc

/-- The contracts of a comparison are profiles of addresses by codes of the batch. -/
theorem exists_code_of_mem_profiles {p : Profile} (hp : p ∈ c.profiles) :
    ∃ a ∈ r.addresses, ∃ q ∈ (f.codes r.addresses r.block l).1.codes,
      Profile.ofCode a (some q.2) none = .ok p := by
  obtain ⟨request, hrequest, hcode, hprofile⟩ := Comparison.exists_request_of_mem_profiles hc hp
  obtain ⟨a, ha, rfl⟩ := List.mem_map.mp hrequest
  rw [Comparison.profileOf] at hprofile
  cases hfor : Comparison.codeFor (offered (f.codes r.addresses r.block l).1) a with
  | none =>
      have hempty : Comparison.hasCode (offered (f.codes r.addresses r.block l).1) a = false := by
        rw [Comparison.hasCode, hfor]
        rfl
      exact absurd (hcode.symm.trans hempty) (by decide)
  | some code =>
      obtain ⟨q, hq, rfl⟩ := exists_mem_of_codeFor hfor
      exact ⟨a, ha, q, hq, hfor ▸ hprofile⟩

/-- Everything that is shown of a comparison has a text: the numbers in a summary are short. -/
theorem exists_shown_of_mem_display (h : Sized f r l) {threshold : Binary64}
    {i : Except QuantityError Shown} (hi : i ∈ display c threshold) : ∃ x, i = .ok x := by
  -- only a summary shows numbers that may be too long, and those of a fetched code are not
  have hsummaries : ∀ j ∈ summaryDisplay c, ∃ x, j = .ok x := by
    intro j hj
    obtain ⟨p, hp, hj⟩ := List.mem_flatMap.mp hj
    obtain ⟨a, -, q, hq, hprofile⟩ := exists_code_of_mem_profiles hc hp
    obtain ⟨text, htext⟩ := Profile.exists_summary hprofile
      (Nat.lt_of_le_of_lt (Fetcher.length_text_of_mem_codes hq) (h.codes q hq))
    rcases List.mem_pair.mp hj with rfl | rfl
    · exact ⟨_, by rw [htext]; rfl⟩
    · exact ⟨_, rfl⟩
  have hplainly {shown : List Shown} : ∀ j ∈ plainly shown, ∃ x, j = .ok x := by
    intro j hj
    obtain ⟨x, -, rfl⟩ := List.mem_map.mp hj
    exact ⟨x, rfl⟩
  rw [display] at hi
  split at hi
  · rcases List.mem_append.mp hi with hi | hi
    · exact (List.mem_append.mp hi).elim (hsummaries i) (hplainly i)
    · exact hplainly i hi
  · exact hplainly i hi

end

/-- Where the screen takes all that is shown, nothing breaks a comparison off. -/
theorem not_brokenOff (htaken : Taken s f r l) (hsized : Sized f r l) (ending : Ending) :
    ¬ BrokenOff s f r l ending := by
  intro hbroken
  cases hbroken with
  | failures withheld =>
      obtain ⟨x, hx, message, hrefused, -⟩ := withheld.of_plainly
      rw [htaken.failures x hx] at hrefused
      cases hrefused
  | chain answered long => exact long (hsized.ids _ _ answered)
  | network answered refuses =>
      rw [htaken.network _ _ answered] at refuses
      cases refuses
  | comparison compared _ withheld =>
      cases withheld with
      | textless mem =>
          obtain ⟨x, hx⟩ := exists_shown_of_mem_display compared hsized mem
          cases hx
      | refused mem refuses =>
          rw [htaken.comparison _ _ _ compared _ mem] at refuses
          cases refuses

/-! ### What a screen takes -/

/-- The screen takes everything whose closing tags close something. -/
def TakesPaired (screen : Shown → Option String) : Prop := ∀ x, x.IsPaired → screen x = none

/-- No closing tag starts in what comes from outside, the addresses and what the node says. -/
structure Untagged (f : Fetcher σ Binary64) (r : CompareRequest) (l : Line σ Binary64) :
    Prop where
  addresses : ∀ a ∈ r.addresses, Markup.Plain a
  reasons : ∀ p ∈ (f.codes r.addresses r.block l).1.failures, Markup.Plain p.2
  faults : ∀ st fault, (f.node.chain st).1.result = .error fault → Markup.Plain fault.message

theorem isPaired_failureLines (h : Untagged f r l) :
    ∀ x ∈ failureLines (f.codes r.addresses r.block l).1, x.IsPaired := by
  intro x hx
  obtain ⟨p, hp, rfl⟩ := List.mem_map.mp hx
  have haddress : p.1 ∈ r.addresses :=
    Fetcher.mem_codes_or_mem_failures_iff.mp (.inr (List.mem_map_of_mem hp))
  refine isPaired_coloured (by decide) ?_
  exact .append (.append (.append (by decide) (h.addresses _ haddress)) (by decide))
    (h.reasons p hp)

theorem isPaired_of_mem_display (haddresses : ∀ a ∈ r.addresses, Markup.Plain a)
    {settings : Settings}
    (hc : comparisonOf settings r (f.codes r.addresses r.block l).1 network = .ok c)
    {threshold : Binary64} {x : Shown} (hx : .ok x ∈ display c threshold) : x.IsPaired := by
  have hplain : ∀ p ∈ c.profiles, p.IsPlain := by
    intro p hp
    obtain ⟨a, ha, q, -, hprofile⟩ := exists_code_of_mem_profiles hc hp
    exact Profile.isPlain_of_ofCode (haddresses a ha) hprofile
  have hsummaries : .ok x ∈ summaryDisplay c → x.IsPaired := by
    intro hx
    obtain ⟨p, hp, hx⟩ := List.mem_flatMap.mp hx
    rcases List.mem_pair.mp hx with hx | hx
    · obtain ⟨text, htext, rfl⟩ := map_eq_ok_iff.mp hx.symm
      exact isPaired_summary (hplain p hp) htext (some "dim")
    · obtain rfl := Except.ok.inj hx
      exact List.forall_mem_singleton.mpr (.plain (by decide))
  have hplainly {shown : List Shown} (hshown : ∀ y ∈ shown, y.IsPaired)
      (hx : .ok x ∈ plainly shown) : x.IsPaired := by
    obtain ⟨y, hy, hyx⟩ := List.mem_map.mp hx
    exact Except.ok.inj hyx ▸ hshown y hy
  rw [display] at hx
  split at hx
  · rcases List.mem_append.mp hx with hx | hx
    · rcases List.mem_append.mp hx with hx | hx
      · exact hsummaries hx
      · exact hplainly (isPaired_pairDisplay hplain (Comparison.eq_outcome_of_ofCodes hc)) hx
    · exact hplainly (isPaired_groupDisplay hplain threshold) hx
  · exact hplainly
      (List.forall_mem_singleton.mpr (isPaired_coloured (by decide) (by decide))) hx

/-- A screen that takes all paired texts takes all that is shown, if only the program writes
tags. -/
theorem taken_of_untagged (hscreen : TakesPaired s.screen) (h : Untagged f r l) :
    Taken s f r l where
  failures x hx := hscreen x (isPaired_failureLines h x hx)
  network _ _ hfault :=
    hscreen _ (isPaired_coloured (by decide) (.append (by decide) (h.faults _ _ hfault)))
  comparison _ _ _ hc x hx := hscreen x (isPaired_of_mem_display h.addresses hc hx)

/-! ### No file -/

theorem isPrint_of_prints (shown : List Shown) : ∀ a ∈ prints shown, ∃ x, a = .print x := by
  intro a ha
  obtain ⟨x, -, rfl⟩ := List.mem_map.mp ha
  exact ⟨x, rfl⟩

theorem isPrint_of_analyze (s : Surroundings σ) (r : AnalyzeRequest) (l : Line σ Binary64) :
    ∀ a ∈ (analyze s r l).acts, ∃ x, a = .print x := by
  unfold analyze
  split
  · simp
  · dsimp only
    split
    · exact isPrint_of_presentThen s _ (by simp)
    · split
      · simp
      · exact isPrint_of_presentThen s _ (by simp)

theorem isPrint_of_inspect (s : Surroundings σ) (r : InspectRequest) (l : Line σ Binary64) :
    ∀ a ∈ (inspect s r l).acts, ∃ x, a = .print x := by
  unfold inspect
  dsimp only
  split <;> exact isPrint_of_presentThen s _ (by simp)

theorem reportActs_ne_exit_one (s : Surroundings σ) (r : CompareRequest) (c : Comparison) :
    (reportActs s r c).2 ≠ .exit 1 := by
  unfold reportActs
  split
  · simp
  · simp
  · simp
  · split
    · simp
    · exact fun h => absurd (exit_of_presentThen h) (by simp)

/-- A file is written on the way to code 0. -/
theorem isPrint_of_comparisonActs (h : (comparisonActs s r c).2 = .exit 1) :
    ∀ a ∈ (comparisonActs s r c).1, ∃ x, a = .print x := by
  unfold comparisonActs at h ⊢
  split at h
  · -- two contracts end with code 0 or with a failure
    replace h := exit_of_presentThen h
    split at h
    · cases h
    · exact absurd (exit_of_presentThen h) (reportActs_ne_exit_one s r c)
  · next hfew =>
      rw [if_neg hfew]
      exact isPrint_of_presentThen s _ (by simp)

theorem isPrint_of_networkActs {batch : Batch}
    {answer : Except ChainError (Option String × List Shown)}
    (h : (networkActs s r batch answer).2 = .exit 1) :
    ∀ a ∈ (networkActs s r batch answer).1, ∃ x, a = .print x := by
  unfold networkActs at h ⊢
  split at h
  · simp
  · replace h := exit_of_presentThen h
    refine isPrint_of_presentThen s _ ?_
    split at h
    · simp
    · exact isPrint_of_comparisonActs h

theorem isPrint_of_compare (h : (compare s r l).ending = .exit 1) :
    ∀ a ∈ (compare s r l).acts, ∃ x, a = .print x := by
  revert h
  unfold compare
  split
  · simp
  · dsimp only
    split
    · simp
    · next acts hshown =>
        intro h
        rw [List.forall_mem_append, acts_of_present hshown]
        exact ⟨isPrint_of_prints _, isPrint_of_networkActs h⟩

/-- What ends with code 1 only shows something. -/
theorem exists_print_of_exit_one (s : Surroundings σ) (args : List String) (l : Line σ Binary64)
    (h : (run s args l).ending = .exit 1) : ∀ a ∈ (run s args l).acts, ∃ x, a = .print x := by
  revert h
  unfold run
  split
  · simp
  · simp
  · next name request _ =>
      dsimp only
      split
      · cases request with
        | analyze r => exact fun _ => isPrint_of_analyze s r l
        | compare r => exact isPrint_of_compare
        | inspect r => exact fun _ => isPrint_of_inspect s r l
      · simp

/-- Surroundings by default, with a screen that reads tags. -/
def tagged : Surroundings Unit := { chainless with screen := Markup.screen }

/-- One address in two cases and one in a bad form. -/
def oneContract : List String :=
  ["0xaaaaaaaaaaaaaaaaaaaaaaaaaaaaaaaaaaaaaaaa", "0xbb",
    "0XAAAAAAAAAAAAAAAAAAAAAAAAAAAAAAAAAAAAAAAA"]

theorem batch_tagged {f : Fetcher Unit Binary64} (hf : fetcherAt tagged none = .ok f) :
    (∀ p ∈ (f.codes oneContract none ⟨1000, 0, (), []⟩).1.failures, Markup.Plain p.2) ∧
      (∀ p ∈ (f.codes oneContract none ⟨1000, 0, (), []⟩).1.codes, p.2.length < 2 ^ 63) ∧
      ¬ TwoFetched (f.outcomes none oneContract ⟨1000, 0, (), []⟩) := by
  obtain rfl := Except.ok.inj ((fetcherAt_eq usable_default none).symm.trans hf)
  decide +kernel

/-- A closing tag among the addresses breaks a comparison off. -/
example : (run tagged ["compare", "[/x]"] ⟨1000, 0, (), []⟩).ending =
    .failed (.screen "closing tag '[/x]' doesn't match any open tag") := by
  decide +kernel

end ContractSurvey.CommandLine
