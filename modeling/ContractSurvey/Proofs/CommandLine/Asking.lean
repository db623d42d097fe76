import ContractSurvey.Address.Checksum
import ContractSurvey.CommandLine.Run
import ContractSurvey.Proofs.CommandLine.Giving

/-!
# Proofs — CommandLine — Asking

What a command line asks for, before anything is done about it.  Settings with which the program can
be run give a fetcher (`fetcherAt_eq`), and an accepted command line with a log level that there is
is carried out as what it asks for (`run_of_parse`).  Plain words behind the word for a comparison
are the addresses to compare (`asks_addresses`).
-/

namespace ContractSurvey.CommandLine

/-! ### Settings -/

/-- The program can be run with these settings: the log has a level, and there is an interval
between two questions. -/
structure Usable (s : Settings) : Prop where
  level : Text.upper s.logLevel ∈ logLevels
  rate_ne : s.requestsPerSecond ≠ 0
  rate_finite : (Binary64.ofInt s.requestsPerSecond).isFinite = true

variable {σ : Type} {s : Surroundings σ}

theorem wholeRate_eq {n : Int} (hne : n ≠ 0) (hfinite : (Binary64.ofInt n).isFinite = true) :
    Access.wholeRate n = .ok (Binary64.ofInt n) := by
  have hconverted : Binary64.converted n = .ok (Binary64.ofInt n) := if_pos hfinite
  unfold Access.wholeRate
  split
  · exact absurd rfl hne
  · rw [hconverted]
    rfl

/-- The way to a node with these settings. -/
def accessFor (s : Settings) (url : Option String) : Access where
  url := Access.firstGiven url s.nodeUrl
  timeout := .whole s.timeoutSeconds
  interval := 1 / Binary64.ofInt s.requestsPerSecond

theorem fetcherAt_eq (h : Usable s.settings) (url : Option String) :
    fetcherAt s url = .ok
      { node := s.nodeAt (accessFor s.settings url)
        interval := (accessFor s.settings url).interval
        defaultBlock := .tag s.settings.blockTag
        checksum := s.checksum } := by
  rw [fetcherAt, Access.of, Access.rateFor, wholeRate_eq h.rate_ne h.rate_finite]
  rfl

/-! ### What is asked for -/

/-- The command line asks for the comparison, with a log level that there is. -/
def Asks (platform : Platform) (s : Settings) (args : List String) (r : CompareRequest) : Prop :=
  ∃ level, Invocation.parse platform s args = .ok ⟨some level, .compare r⟩ ∧
    Text.upper level ∈ logLevels

theorem run_of_parse {args : List String} {level : String} {request : Request}
    (h : Invocation.parse s.platform s.settings args = .ok ⟨some level, request⟩)
    (hlevel : Text.upper level ∈ logLevels) (l : Line σ Binary64) :
    run s args l = request.run s l := by
  rw [run, h]
  exact if_pos hlevel

theorem run_of_asks {args : List String} {r : CompareRequest}
    (h : Asks s.platform s.settings args r) (l : Line σ Binary64) :
    run s args l = compare s r l := by
  obtain ⟨level, hparse, hlevel⟩ := h
  exact run_of_parse hparse hlevel l

/-- The first level takes a plain word and everything behind it as it stands. -/
theorem parse_outer_of_words (platform : Platform) (settings : Settings) {word : String}
    {texts : List String} (hword : word.toList.head? ≠ some '-') {ws : List Word}
    (h : words (outerGrammar platform settings).names texts = .ok ws) :
    (outerGrammar platform settings).parse (word :: texts) =
      .ok ((some settings.logLevel, word :: texts), []) := by
  have hwords : words (outerGrammar platform settings).names (word :: texts) =
      .ok (⟨word, .plain⟩ :: ws) := words_cons_plain hword h
  rw [Grammar.parse, hwords]
  simp [Grammar.walk, outerGrammar, Progress.take, bind, Except.bind, words_text h]

theorem parse_outer (platform : Platform) (settings : Settings) {word : String}
    {texts : List String} (h : ∀ t ∈ word :: texts, t.toList.head? ≠ some '-') :
    (outerGrammar platform settings).parse (word :: texts) =
      .ok ((some settings.logLevel, word :: texts), []) := by
  obtain ⟨hword, htexts⟩ := List.forall_mem_cons.mp h
  exact parse_outer_of_words platform settings hword (words_eq_plain htexts)

section

variable (platform : Platform) (settings : Settings) {addresses : List String}

/-- The level of a comparison takes all the plain words that are left. -/
theorem walk_compare (hne : addresses ≠ []) (r : CompareRequest) :
    (compareGrammar platform settings).walk (addresses.map fun a => ⟨a, .plain⟩) { values := r } =
      .ok { values := r, operands := addresses, phase := .taking } := by
  have hempty : addresses.isEmpty = false := by simpa using hne
  rw [Grammar.walk_plain rfl addresses (by simp), hempty, if_neg Bool.false_ne_true]
  rfl

theorem finish_compare (hne : addresses ≠ []) (r : CompareRequest) :
    (compareGrammar platform settings).finish r addresses = some { r with addresses } := by
  have hempty : addresses.isEmpty = false := by simpa using hne
  exact if_neg (by rw [hempty]; exact Bool.false_ne_true)

theorem parse_compare (hne : addresses ≠ []) (h : ∀ t ∈ addresses, t.toList.head? ≠ some '-') :
    (compareGrammar platform settings).parse addresses =
      .ok ({ addresses, familyThreshold := some settings.familyThreshold }, []) := by
  rw [Grammar.parse, words_eq_plain h]
  dsimp only
  rw [walk_compare platform settings hne, ok_bind]
  dsimp only
  rw [finish_compare platform settings hne]
  rfl

end

/-- Plain words behind the word for a comparison are the addresses to compare. -/
theorem asks_addresses (platform : Platform) {settings : Settings} (hs : Usable settings)
    {addresses : List String} (hne : addresses ≠ [])
    (h : ∀ t ∈ addresses, t.toList.head? ≠ some '-') :
    Asks platform settings ("compare" :: addresses)
      { addresses, familyThreshold := some settings.familyThreshold } := by
  have hword : ∀ t ∈ "compare" :: addresses, t.toList.head? ≠ some '-' :=
    List.forall_mem_cons.mpr ⟨by decide, h⟩
  have hrequest : Request.parse platform settings "compare" addresses =
      .ok (.compare { addresses, familyThreshold := some settings.familyThreshold }, []) := by
    rw [Request.parse, if_neg (by decide), if_pos rfl, parse_compare platform settings hne h]
    rfl
  refine ⟨settings.logLevel, ?_, hs.level⟩
  rw [Invocation.parse, parse_outer platform settings hword]
  simp [bind, Except.bind, pure, Except.pure, hrequest]

/-! ### Surroundings by default -/

theorem usable_default : Usable {} where
  level := by decide
  rate_ne := by decide
  rate_finite := by decide +kernel

/-- Every node has code at every address and is not reached about its chain, and the screen takes
everything. -/
def chainless : Surroundings Unit where
  settings := {}
  platform := ⟨false, false, 900⟩
  nodeAt := fun _ =>
    { code := fun _ _ st => (⟨.ok [0x60, 0x80], 0⟩, st)
      chain := fun st => (⟨.error ⟨.timeout, "no answer"⟩, 0⟩, st) }
  checksum := Address.checksumText
  screen := fun _ => none
  now := ⟨⟨2024, 1, 1⟩, 0, 0, 0, 0⟩

end ContractSurvey.CommandLine
