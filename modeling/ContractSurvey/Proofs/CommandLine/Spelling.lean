import ContractSurvey.CommandLine.Run
import ContractSurvey.Proofs.Address.Checksum
import ContractSurvey.Proofs.Comparison.Codes
import ContractSurvey.Proofs.Node.Batch
import Mathlib.Data.List.Nodup

/-!
# Proofs — CommandLine — Spelling

Whether a comparison of addresses on the command line compares a contract with itself.  A node is
asked about the checksum form of an address, while addresses are told apart up to letter case.  The
two agree except for the mark (`Address.lower_eq_iff`), so a contract is compared with itself
exactly if its code is fetched both for a spelling with the mark and for one without
(`nodup_checksums_iff`), which can happen (`not_nodup_checksums_bothSpellings`).  All that is asked
of the checksum form is `Address.IsChecksum`.  The main statement is `comparisonOf_checksums`.
-/

namespace ContractSurvey.CommandLine

variable {σ : Type} {f : Fetcher σ Binary64} {l : Line σ Binary64} {r : CompareRequest}

/-- The codes of a batch as a comparison takes them. -/
def offered (batch : Batch) : Ledger String (Option String) :=
  batch.codes.map fun (address, code) => (address, some code)

/-- An address has code in a comparison exactly if the batch has a code for it, up to letter
case. -/
theorem hasCode_offered {batch : Batch}
    (h : ∀ p ∈ batch.codes, Bytecode.isEmpty (some p.2) = false) {address : String} :
    Comparison.hasCode (offered batch) address = true ↔
      ∃ a ∈ batch.codes.keys, Text.lower a = Text.lower address := by
  rw [Comparison.hasCode, Comparison.codeFor]
  cases hfind : (offered batch).reverse.find? fun p => Text.lower p.1 = Text.lower address with
  | none =>
      refine iff_of_false (by decide) ?_
      rintro ⟨a, ha, hlower⟩
      obtain ⟨p, hp, rfl⟩ := List.mem_map.mp ha
      have hmem : (p.1, some p.2) ∈ (offered batch).reverse :=
        List.mem_reverse.mpr (List.mem_map.mpr ⟨p, hp, rfl⟩)
      exact List.find?_eq_none.mp hfind _ hmem (decide_eq_true hlower)
  | some q =>
      obtain ⟨p, hp, rfl⟩ := List.mem_map.mp (List.mem_reverse.mp (List.mem_of_find?_eq_some hfind))
      refine iff_of_true (by simpa using h p hp) ⟨p.1, List.mem_map_of_mem hp, ?_⟩
      simpa using List.find?_some hfind

theorem exists_mem_of_codeFor {batch : Batch} {address code : String}
    (h : Comparison.codeFor (offered batch) address = some code) :
    ∃ p ∈ batch.codes, p.2 = code := by
  rw [Comparison.codeFor] at h
  obtain ⟨q, hfind, hq⟩ := Option.bind_eq_some_iff.mp h
  obtain ⟨p, hp, rfl⟩ := List.mem_map.mp (List.mem_reverse.mp (List.mem_of_find?_eq_some hfind))
  exact ⟨p, hp, Option.some.inj hq⟩

/-- What a comparison of a batch is about: the addresses fetched, each once up to letter case. -/
theorem exists_comparisonOf_eq_ok (s : Settings) (r : CompareRequest) (f : Fetcher σ Binary64)
    (l : Line σ Binary64) (network : Option String) :
    ∃ c, comparisonOf s r (f.codes r.addresses r.block l).1 network = .ok c ∧
      (Comparison.keys c.profiles).Nodup ∧
      (∀ p ∈ c.profiles, ∃ a ∈ (f.codes r.addresses r.block l).1.codes.keys,
        Text.lower a = Text.lower p.address) ∧
      ∀ a ∈ (f.codes r.addresses r.block l).1.codes.keys,
        ∃ p ∈ c.profiles, Text.lower p.address = Text.lower a := by
  have hcode : ∀ p ∈ (f.codes r.addresses r.block l).1.codes,
      Bytecode.isEmpty (some p.2) = false := fun p hp => (Fetcher.code_eq_ok_of_mem_codes hp).2
  obtain ⟨c, hc, hnodup, hprofiles, hrequests⟩ := Comparison.exists_ofCodes_eq_ok s.alikeThreshold
    (r.addresses.map fun address => { address })
    (offered (f.codes r.addresses r.block l).1) (f.codes r.addresses r.block l).1.failures.keys
    network
  refine ⟨c, hc, hnodup, fun p hp => (hasCode_offered hcode).mp (hprofiles p hp), fun a ha => ?_⟩
  have haddress : a ∈ r.addresses := Fetcher.mem_codes_or_mem_failures_iff.mp (.inl ha)
  have hkey := hrequests { address := a } (List.mem_map.mpr ⟨a, haddress, rfl⟩)
    ((hasCode_offered hcode).mpr ⟨a, ha, rfl⟩)
  exact List.mem_map.mp hkey

/-- No contract stands in a comparison twice exactly if no two spellings that were fetched differ in
the mark. -/
theorem nodup_checksums_iff {checksum : String → Except String String}
    (hchecksum : Address.IsChecksum checksum) {profiles : List Profile} {fetched : List String}
    (hvalid : ∀ a ∈ fetched, Address.IsValid a) (hnodup : (Comparison.keys profiles).Nodup)
    (hprofiles : ∀ p ∈ profiles, ∃ a ∈ fetched, Text.lower a = Text.lower p.address)
    (hfetched : ∀ a ∈ fetched, ∃ p ∈ profiles, Text.lower p.address = Text.lower a) :
    (profiles.map fun p => checksum p.address).Nodup ↔
      ∀ a ∈ fetched, ∀ b ∈ fetched, ¬ Address.DifferInMark a b := by
  constructor
  · intro hchecksums a ha b hb hmark
    obtain ⟨hsame, hlower⟩ := (hchecksum.differInMark_iff (hvalid a ha) (hvalid b hb)).mp hmark
    obtain ⟨p, hp, hpa⟩ := hfetched a ha
    obtain ⟨q, hq, hqb⟩ := hfetched b hb
    have hpq : checksum p.address = checksum q.address := by
      rw [hchecksum.eq_of_lower_eq (hvalid a ha) hpa, hsame,
        hchecksum.eq_of_lower_eq (hvalid b hb) hqb]
    obtain rfl : p = q := List.inj_on_of_nodup_map hchecksums hp hq hpq
    exact hlower (hpa.symm.trans hqb)
  · intro hmark
    refine List.pairwise_map.mpr ((List.pairwise_map.mp hnodup).imp_of_mem ?_)
    intro p q hp hq hlower hsame
    obtain ⟨a, ha, hap⟩ := hprofiles p hp
    obtain ⟨b, hb, hbq⟩ := hprofiles q hq
    refine hmark a ha b hb ((hchecksum.differInMark_iff (hvalid a ha) (hvalid b hb)).mpr ⟨?_, ?_⟩)
    · rw [← hchecksum.eq_of_lower_eq (hvalid a ha) hap.symm, hsame,
        hchecksum.eq_of_lower_eq (hvalid b hb) hbq.symm]
    · rwa [hap, hbq]

theorem isValid_of_mem_keys (hchecksum : Address.IsChecksum f.checksum) {a : String}
    (h : a ∈ (f.codes r.addresses r.block l).1.codes.keys) : Address.IsValid a := by
  obtain ⟨p, hp, rfl⟩ := List.mem_map.mp h
  exact (hchecksum.accepts p.1).mp (Fetcher.code_eq_ok_of_mem_codes hp).1

/-- **Contracts compared with themselves**: a comparison on the command line always comes about, all
its contracts have a checksum form, and no two of them have the same exactly if no two spellings
whose code was fetched differ in the mark. -/
theorem comparisonOf_checksums (s : Settings) (r : CompareRequest) (f : Fetcher σ Binary64)
    (hchecksum : Address.IsChecksum f.checksum) (l : Line σ Binary64) (network : Option String) :
    ∃ c, comparisonOf s r (f.codes r.addresses r.block l).1 network = .ok c ∧
      (∀ p ∈ c.profiles, ∃ form, f.checksum p.address = .ok form) ∧
      ((c.profiles.map fun p => f.checksum p.address).Nodup ↔
        ∀ a ∈ (f.codes r.addresses r.block l).1.codes.keys,
          ∀ b ∈ (f.codes r.addresses r.block l).1.codes.keys, ¬ Address.DifferInMark a b) := by
  obtain ⟨c, hc, hnodup, hprofiles, hfetched⟩ := exists_comparisonOf_eq_ok s r f l network
  refine ⟨c, hc, fun p hp => ?_, ?_⟩
  · obtain ⟨a, ha, hlower⟩ := hprofiles p hp
    exact (hchecksum.accepts p.address).mpr
      ((isValid_of_mem_keys hchecksum ha).of_lower_eq hlower.symm)
  · exact nodup_checksums_iff hchecksum (fun _ => isValid_of_mem_keys hchecksum) hnodup hprofiles
      hfetched

/-! ### One contract in two spellings -/

/-- Always answers with one code. -/
def steady : Fetcher Unit Binary64 where
  node :=
    { code := fun _ _ s => (⟨.ok [0x63, 0xa9, 0x05, 0x9c, 0xbb], 0⟩, s)
      chain := fun s => (⟨.ok none, 0⟩, s) }
  interval := 0
  defaultBlock := .tag "latest"
  checksum := Address.checksumText

/-- One address in two cases and another one, all with the mark. -/
def marked : CompareRequest where
  addresses :=
    ["0xaaaaaaaaaaaaaaaaaaaaaaaaaaaaaaaaaaaaaaaa", "0XAAAAAAAAAAAAAAAAAAAAAAAAAAAAAAAAAAAAAAAA",
      "0xbbbbbbbbbbbbbbbbbbbbbbbbbbbbbbbbbbbbbbbb"]
  familyThreshold := none

/-- Letter case alone does not make a contract stand in a comparison twice. -/
theorem comparisonOf_checksums_marked : Address.IsChecksum steady.checksum ∧
    ∃ c, comparisonOf {} marked (steady.codes marked.addresses none ⟨1000, 0, (), []⟩).1 none =
        .ok c ∧
      (c.profiles.map fun p => steady.checksum p.address).Nodup := by
  have hchecksum : Address.IsChecksum steady.checksum := Address.isChecksum_checksumText
  obtain ⟨c, hc, -, hnodup⟩ :=
    comparisonOf_checksums {} marked steady hchecksum ⟨1000, 0, (), []⟩ none
  have hmark : ∀ a ∈ marked.addresses, ∀ b ∈ marked.addresses,
      Address.isMarked a = Address.isMarked b := by decide
  refine ⟨hchecksum, c, hc, hnodup.mpr fun a ha b hb hdiffer => hdiffer.2 (hmark a ?_ b ?_)⟩
  · exact Fetcher.mem_codes_or_mem_failures_iff.mp (.inl ha)
  · exact Fetcher.mem_codes_or_mem_failures_iff.mp (.inl hb)

/-- One address with the mark and without. -/
def bothSpellings : CompareRequest where
  addresses :=
    ["0xaaaaaaaaaaaaaaaaaaaaaaaaaaaaaaaaaaaaaaaa", "aaaaaaaaaaaaaaaaaaaaaaaaaaaaaaaaaaaaaaaa"]
  familyThreshold := none

/-- A contract compared with itself. -/
theorem not_nodup_checksums_bothSpellings :
    ∃ c, comparisonOf {} bothSpellings (steady.codes bothSpellings.addresses none
        ⟨1000, 0, (), []⟩).1 none = .ok c ∧
      ¬ (c.profiles.map fun p => steady.checksum p.address).Nodup := by
  obtain ⟨c, hc, hnodup, hprofiles, hfetched⟩ :=
    exists_comparisonOf_eq_ok {} bothSpellings steady ⟨1000, 0, (), []⟩ none
  refine ⟨c, hc, fun hchecksums => ?_⟩
  have hchecksum : Address.IsChecksum steady.checksum := Address.isChecksum_checksumText
  have hmark := (nodup_checksums_iff hchecksum (fun _ => isValid_of_mem_keys hchecksum) hnodup
    hprofiles hfetched).mp hchecksums
  have hkeys : (steady.codes bothSpellings.addresses none ⟨1000, 0, (), []⟩).1.codes.keys =
      bothSpellings.addresses := by
    decide +kernel
  have hdiffer : Address.DifferInMark "0xaaaaaaaaaaaaaaaaaaaaaaaaaaaaaaaaaaaaaaaa"
      "aaaaaaaaaaaaaaaaaaaaaaaaaaaaaaaaaaaaaaaa" := ⟨by decide, by decide⟩
  exact hmark _ (hkeys ▸ List.mem_cons_self)
    _ (hkeys ▸ List.mem_cons_of_mem _ List.mem_cons_self) hdiffer

end ContractSurvey.CommandLine
