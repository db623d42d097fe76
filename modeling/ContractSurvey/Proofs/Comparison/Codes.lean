import ContractSurvey.Proofs.Comparison.Result
import ContractSurvey.Proofs.Profile.Pattern
import ContractSurvey.Proofs.Sequence.Ledger

/-!
# Proofs — Comparison — Codes

A comparison that starts from codes.  Addresses count up to letter case, in the requests
(`firstRequests`) as in the codes (`codeFor`).  The first requests with code become profiles in
their order, those without are added to the failed addresses, and what is left is the comparison of
these profiles (`exists_ofCodes_eq`), which cannot fail (`exists_ofCodes_eq_ok`).  So an address
that was requested is compared if it has code (`mem_keys_profiles`) and failed if not
(`mem_allFailed`).  The main statement is `ofCodes_eq_ofProfiles`.
-/

namespace ContractSurvey.Comparison

/-! ### Requests up to letter case -/

def Request.key (r : Request) : String := Text.lower r.address

/-- The requests whose address no earlier one has, up to letter case. -/
def firstRequests (requests : List Request) : List Request :=
  (requests.zipIdx.filter fun ri => ri.1.key ∉ (requests.take ri.2).map Request.key).map Prod.fst

theorem firstOfEach_cons (seen : List String) (r : Request) (rest : List Request) :
    firstOfEach seen (r :: rest) =
      if r.key ∈ seen then firstOfEach seen rest else r :: firstOfEach (r.key :: seen) rest := rfl

/-- What is seen are the addresses of the requests before. -/
theorem firstOfEach_eq {seen : List String} {before after : List Request}
    (h : ∀ k, k ∈ seen ↔ k ∈ before.map Request.key) :
    firstOfEach seen after =
      ((after.zipIdx before.length).filter fun ri =>
        ri.1.key ∉ ((before ++ after).take ri.2).map Request.key).map Prod.fst := by
  induction after generalizing seen before with
  | nil => rfl
  | cons r after ih =>
      -- The request moves to those before, whether or not its address is new.
      have hsplit : before ++ r :: after = (before ++ [r]) ++ after := by simp
      have hlen : before.length + 1 = (before ++ [r]).length := by simp
      rw [firstOfEach_cons, List.zipIdx_cons, List.filter_cons, List.take_left]
      by_cases hr : r.key ∈ seen
      · rw [if_pos hr, if_neg (by simpa using (h _).mp hr), hsplit, hlen]
        refine ih fun k => ?_
        rw [h, List.map_append, List.mem_append, List.map_singleton, List.mem_singleton]
        exact ⟨.inl, fun hk => hk.elim id fun e => e ▸ (h _).mp hr⟩
      · rw [if_neg hr, if_pos (by simpa using (h _).not.mp hr), List.map_cons, hsplit, hlen]
        refine congrArg _ (ih fun k => ?_)
        rw [List.mem_cons, h, List.map_append, List.mem_append, List.map_singleton,
          List.mem_singleton, or_comm]

theorem firstOfEach_nil (requests : List Request) :
    firstOfEach [] requests = firstRequests requests := by
  have hnone (k : String) : k ∈ ([] : List String) ↔ k ∈ ([] : List Request).map Request.key :=
    Iff.rfl
  exact firstOfEach_eq hnone

theorem mem_keys_firstOfEach {k : String} {seen : List String} {requests : List Request} :
    k ∈ (firstOfEach seen requests).map Request.key ↔
      k ∉ seen ∧ k ∈ requests.map Request.key := by
  induction requests generalizing seen with
  | nil => simp [firstOfEach]
  | cons r requests ih =>
      by_cases hr : r.key ∈ seen
      · rw [firstOfEach_cons, if_pos hr, ih, List.map_cons, List.mem_cons]
        exact and_congr_right fun hk =>
          (or_iff_right fun e : k = r.key => hk (e ▸ hr)).symm
      · rw [firstOfEach_cons, if_neg hr, List.map_cons, List.map_cons, List.mem_cons,
          List.mem_cons, ih, List.mem_cons, not_or]
        by_cases hk : k = r.key
        · simp [hk, hr]
        · exact ⟨fun h => ⟨(h.resolve_left hk).1.2, .inr (h.resolve_left hk).2⟩,
            fun h => .inr ⟨⟨hk, h.1⟩, h.2.resolve_left hk⟩⟩

theorem nodup_keys_firstOfEach (seen : List String) (requests : List Request) :
    ((firstOfEach seen requests).map Request.key).Nodup := by
  induction requests generalizing seen with
  | nil => exact List.nodup_nil
  | cons r requests ih =>
      by_cases hr : r.key ∈ seen
      · rw [firstOfEach_cons, if_pos hr]
        exact ih seen
      · rw [firstOfEach_cons, if_neg hr, List.map_cons, List.nodup_cons]
        exact ⟨fun h => (mem_keys_firstOfEach.mp h).1 List.mem_cons_self, ih _⟩

/-! ### Codes up to letter case -/

/-- The code of an address: up to letter case, and the last one. -/
def codeFor (codes : Ledger String (Option String)) (address : String) : Option String :=
  (codes.reverse.find? fun p => Text.lower p.1 = Text.lower address).bind Prod.snd

/-- Whether the code of an address is more than blanks and a mark. -/
def hasCode (codes : Ledger String (Option String)) (address : String) : Bool :=
  !Bytecode.isEmpty (codeFor codes address)

variable {codes : Ledger String (Option String)}

theorem get?_lowered (codes : Ledger String (Option String)) (address : String) :
    ((lowered codes).get? (Text.lower address)).join = codeFor codes address := by
  rw [lowered, Ledger.get?_ofPairs, ← List.map_reverse, List.find?_map, codeFor]
  simp only [Function.comp_def, Option.map_map]
  cases codes.reverse.find? fun p => Text.lower p.1 = Text.lower address <;> rfl

theorem hasCode_eq_of_lower_eq {a b : String} (h : Text.lower a = Text.lower b) :
    hasCode codes a = hasCode codes b := by
  rw [hasCode, hasCode, codeFor, codeFor, h]

/-! ### Profiles -/

/-- The profile of a request by its code. -/
def profileOf (codes : Ledger String (Option String)) (r : Request) : Except SurveyError Profile :=
  Profile.ofCode r.address (codeFor codes r.address) r.name

theorem exists_profileOf {r : Request} (h : hasCode codes r.address = true) :
    ∃ p, profileOf codes r = .ok p ∧ p.address = r.address :=
  Profile.exists_ofCode _ _ _ (by simpa [hasCode] using h)

/-- The addresses without code that were not handed in as failed. -/
def newFailures (codes : Ledger String (Option String)) (failed : List String)
    (requests : List Request) : List String :=
  ((requests.map (·.address)).filter fun a => !hasCode codes a).filter (· ∉ failed)

section

variable {failed : List String} {r : Request} {rest : List Request}

theorem newFailures_cons_of_hasCode (h : hasCode codes r.address = true) :
    newFailures codes failed (r :: rest) = newFailures codes failed rest := by
  simp [newFailures, h]

/-- To note a failed address at once, or to note all of them in the end, is the same where no
address comes twice. -/
theorem append_newFailures_cons (h : hasCode codes r.address = false)
    (hr : r.address ∉ rest.map (·.address)) :
    (if r.address ∈ failed then failed else failed ++ [r.address]) ++
        newFailures codes (if r.address ∈ failed then failed else failed ++ [r.address]) rest =
      failed ++ newFailures codes failed (r :: rest) := by
  by_cases hf : r.address ∈ failed
  · simp [newFailures, h, hf]
  · -- The address just noted is not looked up again.
    have hrest :
        newFailures codes (failed ++ [r.address]) rest = newFailures codes failed rest := by
      refine List.filter_congr fun a ha => ?_
      have hne : a ≠ r.address := fun e => hr (e ▸ List.mem_of_mem_filter ha)
      simp [hne]
    rw [if_neg hf, hrest, List.append_assoc]
    simp [newFailures, h, hf]

theorem profilesOf_cons_of_not_hasCode (h : hasCode codes r.address = false) :
    profilesOf (lowered codes) failed (r :: rest) =
      profilesOf (lowered codes)
        (if r.address ∈ failed then failed else failed ++ [r.address]) rest := by
  rw [profilesOf, get?_lowered, if_pos (by simpa [hasCode] using h)]

theorem profilesOf_cons_of_hasCode {p : Profile} {ps : List Profile} {failed' : List String}
    (h : hasCode codes r.address = true) (hp : profileOf codes r = .ok p)
    (hrest : profilesOf (lowered codes) failed rest = .ok (ps, failed')) :
    profilesOf (lowered codes) failed (r :: rest) = .ok (p :: ps, failed') := by
  rw [profileOf] at hp
  rw [profilesOf, get?_lowered, if_neg (by simpa [hasCode] using h), hp, hrest]
  rfl

end

/-- The requests with code become profiles, in their order, and the others are failed. -/
theorem profilesOf_eq (codes : Ledger String (Option String)) {requests : List Request}
    (h : (requests.map Request.key).Nodup) (failed : List String) :
    ∃ profiles,
      (requests.filter fun r => hasCode codes r.address).mapM (profileOf codes) = .ok profiles ∧
      profiles.map (·.address) = (requests.map (·.address)).filter (hasCode codes) ∧
      profilesOf (lowered codes) failed requests =
        .ok (profiles, failed ++ newFailures codes failed requests) := by
  induction requests generalizing failed with
  | nil => exact ⟨[], rfl, rfl, by simp [profilesOf, newFailures]⟩
  | cons r rest ih =>
      rw [List.map_cons, List.nodup_cons] at h
      cases hr : hasCode codes r.address with
      | true =>
          obtain ⟨p, hp, haddress⟩ := exists_profileOf hr
          obtain ⟨ps, hmapM, hmap, hps⟩ := ih h.2 failed
          refine ⟨p :: ps, ?_, ?_, ?_⟩
          · rw [List.filter_cons, if_pos hr, List.mapM_cons, hp, hmapM]
            rfl
          · rw [List.map_cons, List.map_cons, List.filter_cons_of_pos hr, hmap, haddress]
          · rw [newFailures_cons_of_hasCode hr]
            exact profilesOf_cons_of_hasCode hr hp hps
      | false =>
          have hne : r.address ∉ rest.map (·.address) := fun hmem => by
            obtain ⟨s, hs, e⟩ := List.mem_map.mp hmem
            exact h.1 (List.mem_map.mpr ⟨s, hs, by rw [Request.key, Request.key, e]⟩)
          obtain ⟨ps, hmapM, hmap, hps⟩ := ih h.2 _
          refine ⟨ps, ?_, ?_, ?_⟩
          · rw [List.filter_cons, if_neg (by simp [hr]), hmapM]
          · rw [List.map_cons, List.filter_cons_of_neg (by simp [hr]), hmap]
          · rw [profilesOf_cons_of_not_hasCode hr, hps, append_newFailures_cons hr hne]

/-! ### The comparison -/

section

variable {threshold : Binary64} {requests : List Request} {failed : List String}
  {network : Option String}

/-- The failed addresses of a comparison: those handed in, then the others without code. -/
def allFailed (codes : Ledger String (Option String)) (failed : List String)
    (requests : List Request) : List String :=
  failed ++ newFailures codes failed (firstRequests requests)

theorem mem_keys_firstRequests {k : String} :
    k ∈ (firstRequests requests).map Request.key ↔ k ∈ requests.map Request.key := by
  rw [← firstOfEach_nil, mem_keys_firstOfEach]
  simp

theorem mem_of_mem_firstRequests {r : Request} (h : r ∈ firstRequests requests) : r ∈ requests := by
  obtain ⟨⟨r, i⟩, hri, rfl⟩ := List.mem_map.mp h
  exact List.fst_mem_of_mem_zipIdx (List.mem_of_mem_filter hri)

/-- No failure is new where every address without code was handed in as failed. -/
theorem allFailed_eq (h : ∀ r ∈ requests, hasCode codes r.address = false → r.address ∈ failed) :
    allFailed codes failed requests = failed := by
  have hnone : newFailures codes failed (firstRequests requests) = [] := by
    refine List.filter_eq_nil_iff.mpr fun a ha => ?_
    obtain ⟨haddress, hcode⟩ := List.mem_filter.mp ha
    obtain ⟨r, hr, rfl⟩ := List.mem_map.mp haddress
    simpa using h r (mem_of_mem_firstRequests hr) (by simpa using hcode)
  rw [allFailed, hnone, List.append_nil]

theorem exists_firstRequest {r : Request} (hr : r ∈ requests) :
    ∃ s ∈ firstRequests requests, s.key = r.key :=
  List.mem_map.mp (mem_keys_firstRequests.mpr (List.mem_map_of_mem hr))

theorem nodup_keys_firstRequests (requests : List Request) :
    ((firstRequests requests).map Request.key).Nodup := by
  rw [← firstOfEach_nil]
  exact nodup_keys_firstOfEach [] requests

/-- Comparing codes is comparing the profiles of the first requests with code. -/
theorem exists_ofCodes_eq (threshold : Binary64) (requests : List Request)
    (codes : Ledger String (Option String)) (failed : List String) (network : Option String) :
    ∃ profiles,
      ((firstRequests requests).filter fun r => hasCode codes r.address).mapM (profileOf codes) =
        .ok profiles ∧
      profiles.map (·.address) = ((firstRequests requests).map (·.address)).filter (hasCode codes) ∧
      ofCodes threshold requests codes failed network =
        ofProfiles threshold profiles (allFailed codes failed requests) network := by
  obtain ⟨profiles, hmapM, hmap, hps⟩ :=
    profilesOf_eq codes (nodup_keys_firstRequests requests) failed
  refine ⟨profiles, hmapM, hmap, ?_⟩
  rw [ofCodes, firstOfEach_nil, hps]
  rfl

section

variable {profiles : List Profile}
  (hmap : profiles.map (·.address) =
    ((firstRequests requests).map (·.address)).filter (hasCode codes))

include hmap

theorem nodup_keys_profiles : (keys profiles).Nodup := by
  have hsub : (keys profiles).Sublist ((firstRequests requests).map Request.key) := by
    have := (List.filter_sublist (p := hasCode codes)
      (l := (firstRequests requests).map (·.address))).map Text.lower
    rw [← hmap, List.map_map, List.map_map] at this
    exact this
  exact (nodup_keys_firstRequests requests).sublist hsub

/-- The contracts compared are those requested that have code. -/
theorem mem_keys_profiles {r : Request} (hr : r ∈ requests) :
    r.key ∈ keys profiles ↔ hasCode codes r.address = true := by
  have hkeys : keys profiles = (profiles.map (·.address)).map Text.lower := by
    rw [List.map_map]
    rfl
  rw [hkeys, hmap, List.mem_map]
  constructor
  · rintro ⟨a, ha, hlower⟩
    rw [← hasCode_eq_of_lower_eq hlower]
    exact (List.mem_filter.mp ha).2
  · intro hcode
    obtain ⟨s, hs, hkey⟩ := exists_firstRequest hr
    rw [← hasCode_eq_of_lower_eq hkey] at hcode
    exact ⟨s.address, List.mem_filter.mpr ⟨List.mem_map_of_mem hs, hcode⟩, hkey⟩

end

/-- A comparison of codes succeeds; it compares only addresses with code, no two of them equal up to
letter case, and leaves out none that was requested. -/
theorem exists_ofCodes_eq_ok (threshold : Binary64) (requests : List Request)
    (codes : Ledger String (Option String)) (failed : List String) (network : Option String) :
    ∃ c, ofCodes threshold requests codes failed network = .ok c ∧ (keys c.profiles).Nodup ∧
      (∀ p ∈ c.profiles, hasCode codes p.address = true) ∧
      ∀ r ∈ requests, hasCode codes r.address = true → r.key ∈ keys c.profiles := by
  obtain ⟨profiles, -, hmap, hcodes⟩ := exists_ofCodes_eq threshold requests codes failed network
  have hnodup := nodup_keys_profiles hmap
  refine ⟨_, hcodes.trans (ofProfiles_of_nodup hnodup), ?_⟩
  rw [outcome_profiles]
  refine ⟨hnodup, fun p hp => ?_, fun r hr => (mem_keys_profiles hmap hr).mpr⟩
  have haddress : p.address ∈ profiles.map (·.address) := List.mem_map_of_mem hp
  rw [hmap] at haddress
  exact (List.mem_filter.mp haddress).2

/-- A comparison of codes is the outcome of its profiles. -/
theorem eq_outcome_of_ofCodes {c : Comparison}
    (h : ofCodes threshold requests codes failed network = .ok c) :
    c = outcome threshold c.profiles (allFailed codes failed requests) network := by
  obtain ⟨profiles, -, hmap, hcodes⟩ := exists_ofCodes_eq threshold requests codes failed network
  rw [hcodes, ofProfiles_of_nodup (nodup_keys_profiles hmap)] at h
  obtain rfl := Except.ok.inj h
  rw [outcome_profiles]

/-- What is compared are the profiles of requests with code. -/
theorem exists_request_of_mem_profiles {c : Comparison}
    (h : ofCodes threshold requests codes failed network = .ok c) {p : Profile}
    (hp : p ∈ c.profiles) :
    ∃ r ∈ requests, hasCode codes r.address = true ∧ profileOf codes r = .ok p := by
  obtain ⟨profiles, hmapM, hmap, hcodes⟩ :=
    exists_ofCodes_eq threshold requests codes failed network
  rw [hcodes, ofProfiles_of_nodup (nodup_keys_profiles hmap)] at h
  obtain rfl := Except.ok.inj h
  rw [outcome_profiles] at hp
  obtain ⟨r, hr, hprofile⟩ := exists_mem_of_mapM hmapM hp
  obtain ⟨hfirst, hcode⟩ := List.mem_filter.mp hr
  exact ⟨r, mem_of_mem_firstRequests hfirst, hcode, hprofile⟩

/-- The addresses requested without code have failed. -/
theorem mem_allFailed {r : Request} (hr : r ∈ requests)
    (hfailed : ∀ a ∈ failed, hasCode codes a = false) :
    r.key ∈ (allFailed codes failed requests).map Text.lower ↔ hasCode codes r.address = false := by
  rw [List.mem_map]
  constructor
  · rintro ⟨a, ha, hlower⟩
    rw [← hasCode_eq_of_lower_eq hlower]
    rcases List.mem_append.mp ha with ha | ha
    · exact hfailed a ha
    · simpa using (List.mem_filter.mp (List.mem_of_mem_filter ha)).2
  · intro hcode
    obtain ⟨s, hs, hkey⟩ := exists_firstRequest hr
    rw [← hasCode_eq_of_lower_eq hkey] at hcode
    refine ⟨s.address, ?_, hkey⟩
    by_cases hf : s.address ∈ failed
    · exact List.mem_append_left _ hf
    · have hmem : s.address ∈ (firstRequests requests).map (·.address) := List.mem_map_of_mem hs
      exact List.mem_append_right _ (by simp [newFailures, hcode, hf, hmem])

/-- **Comparison of codes**: it never fails and is the comparison of the profiles of the first
requests with code, with every other address requested among the failed ones.  Where no failed
address handed in has code, each address requested is either compared or failed. -/
theorem ofCodes_eq_ofProfiles (threshold : Binary64) (requests : List Request)
    (codes : Ledger String (Option String)) (failed : List String) (network : Option String) :
    ∃ profiles c,
      ((firstRequests requests).filter fun r => hasCode codes r.address).mapM (profileOf codes) =
        .ok profiles ∧
      ofCodes threshold requests codes failed network =
        ofProfiles threshold profiles (allFailed codes failed requests) network ∧
      ofCodes threshold requests codes failed network = .ok c ∧
      ((∀ a ∈ failed, hasCode codes a = false) →
        ∀ r ∈ requests, Xor (r.key ∈ keys c.profiles) (r.key ∈ c.failed.map Text.lower)) := by
  obtain ⟨profiles, hmapM, hmap, hcodes⟩ :=
    exists_ofCodes_eq threshold requests codes failed network
  have hok : ofProfiles threshold profiles (allFailed codes failed requests) network =
      .ok (outcome threshold profiles (allFailed codes failed requests) network) :=
    ofProfiles_of_nodup (nodup_keys_profiles hmap)
  refine ⟨profiles, _, hmapM, hcodes, hcodes.trans hok, fun hfailed r hr => ?_⟩
  rw [outcome_profiles, outcome_failed, mem_keys_profiles hmap hr, mem_allFailed hr hfailed]
  cases hasCode codes r.address <;> simp [Xor]

end

/-- Three spellings of two addresses, of which one has code in a fourth spelling. -/
theorem ofCodes_eq_ofProfiles_spellings :
    (∀ a ∈ ["0xCC"], hasCode [("0xaA", some "0x6080"), ("0xcc", none)] a = false) ∧
      ∃ c, ofCodes 80 [{ address := "0xAA" }, { address := "0xaa" }, { address := "0xbB" }]
          [("0xaA", some "0x6080"), ("0xcc", none)] ["0xCC"] none = .ok c ∧
        Xor (Text.lower "0xaa" ∈ keys c.profiles) (Text.lower "0xaa" ∈ c.failed.map Text.lower) ∧
        Xor (Text.lower "0xbB" ∈ keys c.profiles)
          (Text.lower "0xbB" ∈ c.failed.map Text.lower) := by
  have hfailed :
      ∀ a ∈ ["0xCC"], hasCode [("0xaA", some "0x6080"), ("0xcc", none)] a = false := by
    decide +kernel
  obtain ⟨_, c, -, -, hc, hsides⟩ := ofCodes_eq_ofProfiles 80
    [{ address := "0xAA" }, { address := "0xaa" }, { address := "0xbB" }]
    [("0xaA", some "0x6080"), ("0xcc", none)] ["0xCC"] none
  exact ⟨hfailed, c, hc, hsides hfailed { address := "0xaa" } (by simp),
    hsides hfailed { address := "0xbB" } (by simp)⟩

end ContractSurvey.Comparison
