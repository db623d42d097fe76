import ContractSurvey.Proofs.Bytecode.Selectors
import ContractSurvey.Proofs.Profile.Ranking
import Mathlib.Data.List.Perm.Subperm

/-!
# Proofs — Profile — Code

What holds of every profile that is made from a code, whatever the code is.  `DrawnFrom` says it
field by field: how the patterns come from the selectors and the dictionary, in which order they
stand, how the two counts relate, and that no list repeats an entry.  Comparisons count on it: they
take selectors for sets and lengths for sizes.

The main statement is `exists_drawnFrom`: a code that is not empty has a profile, and that profile
is drawn from the code.
-/

namespace ContractSurvey

theorem Sequence.distinct_of_nodup {α : Type} [DecidableEq α] {as : List α} (h : as.Nodup) :
    distinct as = as := by
  induction as with
  | nil => rfl
  | cons a as ih =>
      rw [List.nodup_cons] at h
      rw [distinct, ih h.2, List.filter_eq_self.mpr]
      intro b hb
      exact decide_eq_true fun hab => h.1 (hab ▸ hb)

/-! ### Standards -/

namespace TokenStandard

theorem wholePercent_le (found total : Nat) : wholePercent found total ≤ 100 := by
  simp only [wholePercent]
  omega

/-- A standard is reported under its name, with a percentage from 1 to 100. -/
theorem percent_of_compliance? {s : TokenStandard} {found : List Selector} {c : Compliance}
    (h : s.compliance? found = some c) :
    c.standard = s.name ∧ ∃ n : Nat, c.percent = some (.whole n) ∧ 1 ≤ n ∧ n ≤ 100 := by
  simp only [compliance?] at h
  split at h
  · cases h
  · next hne =>
      cases h
      exact ⟨rfl, _, rfl, Nat.pos_of_ne_zero hne, wholePercent_le _ _⟩

/-- A standard is reported at most once. -/
theorem nodup_standard_followed (patterns : List Pattern) :
    ((followed patterns).map (·.standard)).Nodup := by
  have hnames : all.Pairwise fun s t => s.name ≠ t.name := by decide
  refine List.pairwise_map.mpr (hnames.filterMap _ fun s t hne c hc d hd hcd => hne ?_)
  rw [← (percent_of_compliance? hc).1, ← (percent_of_compliance? hd).1]
  exact hcd

theorem percent_of_mem_followed {patterns : List Pattern} {c : Compliance}
    (h : c ∈ followed patterns) :
    ∃ n : Nat, c.percent = some (.whole n) ∧ 1 ≤ n ∧ n ≤ 100 := by
  obtain ⟨s, -, hs⟩ := List.mem_filterMap.mp h
  exact (percent_of_compliance? hs).2

end TokenStandard

/-! ### Features -/

theorem Feature.nodup_security (patterns : List Pattern) : (security patterns).Nodup :=
  (List.filter_sublist.map Prod.snd).nodup (by decide : (securityMarks.map Prod.snd).Nodup)

theorem Feature.nodup_gas (patterns : List Pattern) (code : Option String) :
    (gas patterns code).Nodup := by
  rw [gas]
  exact (List.filter_sublist.map Prod.snd).nodup (by simp)

theorem Bytecode.nodup_opcodeFlags (code : Option String) : (opcodeFlags code).Nodup :=
  List.filter_sublist.nodup (by decide : Opcode.notable.Nodup)

/-! ### Profiles -/

namespace Profile

/-- What a profile says of the code it is made from. -/
structure DrawnFrom (code : Option String) (p : Profile) : Prop where
  nodup_selectors : (p.patterns.map (·.selector)).Nodup
  /-- The functions recognised are the selectors of the code that the dictionary knows. -/
  mem_selectors (t : Selector) : t ∈ p.patterns.map (·.selector) ↔
    t ∈ Bytecode.selectors code ∧ t ∈ Signature.dictionary.map (·.selector)
  signature (q : Pattern) : q ∈ p.patterns → ∃ e, Signature.lookup? q.selector = some e ∧
    q.name = e.name ∧ q.category = e.category ∧ q.standard = e.standard
  ordered : p.patterns.Pairwise Pattern.Precedes
  functionCount_eq : p.functionCount = p.selectors.length
  candidates_eq : p.candidates = some (.whole (Bytecode.selectors code).length)
  functionCount_le : p.functionCount ≤ (Bytecode.selectors code).length
  /-- The eight digits of a selector stand in the normal text. -/
  digits (t : Selector) : t ∈ Bytecode.selectors code →
    ∃ s : Bytecode.SelectorDigits, s.selector = t ∧ s.chars <:+: Bytecode.text code
  nodup_standardNames : p.standardNames.Nodup
  nodup_security : p.security.Nodup
  nodup_gas : p.gas.Nodup
  nodup_opcodeFlags : p.opcodeFlags.Nodup
  percent (c : Compliance) : c ∈ p.standards →
    ∃ n : Nat, c.percent = some (.whole n) ∧ 1 ≤ n ∧ n ≤ 100

theorem mem_selectors_classify {code : Option String} {t : Selector} :
    t ∈ (Pattern.classify (Bytecode.selectors code) code).map (·.selector) ↔
      t ∈ Bytecode.selectors code ∧ t ∈ Signature.dictionary.map (·.selector) := by
  rw [List.mem_map, ← Signature.exists_lookup?_iff]
  constructor
  · rintro ⟨q, hq, rfl⟩
    obtain ⟨s, hs, e, he, rfl⟩ := mem_classify.mp hq
    rw [Bytecode.lower_of_mem_selectors hs] at he
    obtain rfl : e.selector = s := (Signature.lookup?_eq_some he).2
    exact ⟨hs, e, he⟩
  · rintro ⟨ht, e, he⟩
    refine ⟨Pattern.ofSignature (Bytecode.text code) e, ?_, (Signature.lookup?_eq_some he).2⟩
    exact mem_classify.mpr ⟨t, ht, e, by rwa [Bytecode.lower_of_mem_selectors ht], rfl⟩

/-- No more functions are recognised than the scans found selectors. -/
theorem length_classify_le (code : Option String) :
    (Pattern.classify (Bytecode.selectors code) code).length ≤
      (Bytecode.selectors code).length := by
  have hsubset : (Pattern.classify (Bytecode.selectors code) code).map (·.selector) ⊆
      Bytecode.selectors code := fun _ ht => (mem_selectors_classify.mp ht).1
  simpa using (List.subperm_of_subset (nodup_selectors_classify _ code) hsubset).length_le

/-- **The profile of a code.**  A code that is not empty has a profile, and what the profile says
of the code holds together. -/
theorem exists_drawnFrom (address : String) (code name : Option String)
    (h : Bytecode.isEmpty code = false) :
    ∃ p, ofCode address code name = .ok p ∧ p.DrawnFrom code := by
  obtain ⟨p, hp, hcandidates, hstandards, hsecurity, hgas, hflags⟩ :
      ∃ p, ofCode address code name = .ok p ∧
        p.candidates = some (.whole (Bytecode.selectors code).length) ∧
        p.standards = TokenStandard.followed p.patterns ∧
        p.security = Feature.security p.patterns ∧ p.gas = Feature.gas p.patterns code ∧
        p.opcodeFlags = Bytecode.opcodeFlags code := by
    simp [ofCode, h]
  obtain ⟨-, -, hpatterns⟩ := ofCode_eq_ok hp
  have hnodup : (p.patterns.map (·.selector)).Nodup := hpatterns ▸ nodup_selectors_classify _ code
  refine ⟨p, hp, ?_⟩
  exact {
    nodup_selectors := hnodup
    mem_selectors := fun t => by rw [hpatterns, mem_selectors_classify]
    signature := fun q hq => lookup?_of_ofCode hp hq
    ordered := hpatterns ▸ Pattern.pairwise_precedes_classify _ code
    functionCount_eq := by
      rw [selectors, Sequence.distinct_of_nodup hnodup, List.length_map, functionCount]
    candidates_eq := hcandidates
    functionCount_le := by
      rw [functionCount, hpatterns]
      exact length_classify_le code
    digits := fun t ht => Bytecode.exists_digits_of_mem_selectors ht
    nodup_standardNames := by
      rw [standardNames, hstandards]
      exact TokenStandard.nodup_standard_followed _
    nodup_security := hsecurity ▸ Feature.nodup_security _
    nodup_gas := hgas ▸ Feature.nodup_gas _ code
    nodup_opcodeFlags := hflags ▸ Bytecode.nodup_opcodeFlags code
    percent := fun c hc => TokenStandard.percent_of_mem_followed (hstandards ▸ hc) }

/-- Text that is no code at all has a profile too. -/
theorem exists_drawnFrom_text : Bytecode.isEmpty (some " 0x0x63A9059CBB?63Σ") = false ∧
    ∃ p, ofCode "0xab" (some " 0x0x63A9059CBB?63Σ") none = .ok p ∧
      p.DrawnFrom (some " 0x0x63A9059CBB?63Σ") := by
  have h : Bytecode.isEmpty (some " 0x0x63A9059CBB?63Σ") = false := by decide +kernel
  exact ⟨h, exists_drawnFrom "0xab" (some " 0x0x63A9059CBB?63Σ") none h⟩

end Profile

end ContractSurvey
