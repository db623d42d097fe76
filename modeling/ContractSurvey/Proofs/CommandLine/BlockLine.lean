import ContractSurvey.Proofs.CommandLine.Block
import ContractSurvey.Proofs.CommandLine.Spelling

/-!
# Proofs — CommandLine — BlockLine

A command line that gives one text as the block.  It is accepted with what the option makes of the
text, or refused with the option's complaint about it (`parse_of_blockLine`); so a text is accepted
exactly if it is sent.  Digits that are not decimal, or too many, are refused.

The main statement is `run_block`.  Block zero is never asked about (`not_asked_zero`).
-/

namespace ContractSurvey.CommandLine

/-- A command line that gives one text as the block and then some addresses. -/
inductive BlockLine (t : String) : List String → List String → Prop
  | analyze {given : List String} {address : String} (block : Gives "--block" t given) :
      BlockLine t [address] ("analyze" :: (given ++ [address]))
  | compare {given addresses : List String} (block : Gives "--block" t given)
      (nonempty : addresses ≠ []) : BlockLine t addresses ("compare" :: (given ++ addresses))

theorem longName_block : LongName "--block" where
  long := by decide
  ne_dashes := by decide
  unmarked := by decide

/-- The block option enters what it makes of the text. -/
theorem enter_block {α β : Type} (g : Grammar α β) (set : Option Block → α → α) (t : String)
    (p : Progress α) : g.enter (blockOption set) t p =
      ((blockOf (valueOf? g.keepsDashes t)).mapError (g.argumentRefusal "--block")).map
        fun b => { p.interrupted with values := set b p.values } := by
  rw [Grammar.enter, enter_blockOption]
  cases blockOf (valueOf? g.keepsDashes t) <;> rfl

section

variable (platform : Platform) {t : String} {given addresses : List String}

theorem names_analyze :
    (analyzeGrammar platform).names = ["-h", "--help", "--name", "--rpc", "--block"] := rfl

theorem names_compare (settings : Settings) :
    (compareGrammar platform settings).names = ["-h", "--help", "--threshold", "--export",
      "--format", "--network", "--rpc", "--block"] := rfl

theorem parse_analyze_block (h : Gives "--block" t given) {address : String}
    (haddress : address.toList.head? ≠ some '-') :
    (analyzeGrammar platform).parse (given ++ [address]) =
      ((blockOf (valueOf? platform.keepsDashes t)).mapError
        ((analyzeGrammar platform).argumentRefusal "--block")).map
        fun b => ({ address, block := b }, []) := by
  have hplain : words (analyzeGrammar platform).names [address] = .ok [⟨address, .plain⟩] :=
    words_eq_plain (List.forall_mem_singleton.mpr haddress)
  obtain ⟨front, hfront, hwords⟩ :=
    exists_words_given longName_block (by rw [names_analyze]; decide)
      (by rw [names_analyze]; decide) h hplain
  have hkeeps : (analyzeGrammar platform).keepsDashes = platform.keepsDashes := rfl
  rw [Grammar.parse, hwords]
  dsimp only
  rw [walk_given hfront _ (by decide) rfl, enter_block, hkeeps]
  cases blockOf (valueOf? platform.keepsDashes t) <;> rfl

theorem parse_compare_block (settings : Settings) (h : Gives "--block" t given)
    (hne : addresses ≠ []) (haddresses : ∀ a ∈ addresses, a.toList.head? ≠ some '-') :
    (compareGrammar platform settings).parse (given ++ addresses) =
      ((blockOf (valueOf? platform.keepsDashes t)).mapError
        ((compareGrammar platform settings).argumentRefusal "--block")).map
        fun b => ({ addresses, familyThreshold := some settings.familyThreshold, block := b },
          []) := by
  have hplain : words (compareGrammar platform settings).names addresses =
      .ok (addresses.map fun a => ⟨a, .plain⟩) := words_eq_plain haddresses
  obtain ⟨front, hfront, hwords⟩ := exists_words_given longName_block
    (by rw [names_compare]; decide) (by rw [names_compare]; decide) h hplain
  have hkeeps : (compareGrammar platform settings).keepsDashes = platform.keepsDashes := rfl
  rw [Grammar.parse, hwords]
  dsimp only
  rw [walk_given hfront _ (by decide) rfl, enter_block, hkeeps]
  cases blockOf (valueOf? platform.keepsDashes t) with
  | error message => rfl
  | ok b =>
      show ((compareGrammar platform settings).walk (addresses.map fun a => ⟨a, .plain⟩)
        { values := { familyThreshold := some settings.familyThreshold, block := b } } >>= _) = _
      rw [walk_compare platform settings hne, ok_bind]
      dsimp only
      rw [finish_compare platform settings hne]
      rfl

/-- The first level takes a block for nothing of its own. -/
theorem exists_words_outer (settings : Settings) (h : Gives "--block" t given)
    (haddresses : ∀ a ∈ addresses, a.toList.head? ≠ some '-') :
    ∃ ws, words (outerGrammar platform settings).names (given ++ addresses) = .ok ws := by
  have hnames : (outerGrammar platform settings).names = ["-h", "--help", "--log-level"] := rfl
  exact exists_words_foreign longName_block (by rw [hnames]; decide) h (words_eq_plain haddresses)

/-- Behind a plain word the whole line is read as the arguments of that word. -/
theorem parse_invocation_of_words {α : Type} {settings : Settings} {word : String}
    {texts : List String} (hword : word.toList.head? ≠ some '-')
    (hwords : ∃ ws, words (outerGrammar platform settings).names texts = .ok ws)
    {made : Except Refusal α} {request : α → Request}
    (h : Request.parse platform settings word texts = made.map fun a => (request a, [])) :
    Invocation.parse platform settings (word :: texts) =
      made.map fun a => ⟨some settings.logLevel, request a⟩ := by
  obtain ⟨ws, hws⟩ := hwords
  rw [Invocation.parse, parse_outer_of_words platform settings hword hws, ok_bind]
  dsimp only [List.headD_cons, List.tail_cons]
  rw [h]
  cases made <;> rfl

/-- Such a command line is accepted with what the option makes of the text, or refused with the
option's complaint about it. -/
theorem parse_of_blockLine (settings : Settings) {args : List String}
    (h : BlockLine t addresses args) (haddresses : ∀ a ∈ addresses, a.toList.head? ≠ some '-') :
    ∃ (program : String) (request : Option Block → Request),
      (∀ b, (request b).addresses = addresses) ∧
      Invocation.parse platform settings args =
        ((blockOf (valueOf? platform.keepsDashes t)).mapError fun message =>
          .usage program ("argument --block: " ++ message)).map
            fun b => ⟨some settings.logLevel, request b⟩ := by
  cases h with
  | @analyze given address block =>
      have hrequest : Request.parse platform settings "analyze" (given ++ [address]) =
          ((blockOf (valueOf? platform.keepsDashes t)).mapError
            ((analyzeGrammar platform).argumentRefusal "--block")).map
            fun b => (.analyze { address, block := b }, []) := by
        rw [Request.parse, if_pos rfl,
          parse_analyze_block platform block (haddresses address List.mem_cons_self)]
        cases blockOf (valueOf? platform.keepsDashes t) <;> rfl
      refine ⟨(analyzeGrammar platform).program, fun b => .analyze { address, block := b },
        fun _ => rfl, ?_⟩
      exact parse_invocation_of_words platform (by decide)
        (exists_words_outer platform settings block haddresses) hrequest
  | @compare given _ block hne =>
      have hrequest : Request.parse platform settings "compare" (given ++ addresses) =
          ((blockOf (valueOf? platform.keepsDashes t)).mapError
            ((compareGrammar platform settings).argumentRefusal "--block")).map fun b =>
              (.compare { addresses, familyThreshold := some settings.familyThreshold, block := b },
                []) := by
        rw [Request.parse, if_neg (by decide), if_pos rfl,
          parse_compare_block platform settings block hne haddresses]
        cases blockOf (valueOf? platform.keepsDashes t) <;> rfl
      refine ⟨(compareGrammar platform settings).program, fun b => .compare
        { addresses, familyThreshold := some settings.familyThreshold, block := b },
        fun _ => rfl, ?_⟩
      exact parse_invocation_of_words platform (by decide)
        (exists_words_outer platform settings block haddresses) hrequest

theorem texts_given {α β : Type} {g : Grammar α β} (hname : "--block" ∈ g.names)
    (hmark : ∀ n ∈ g.names, '=' ∉ n.toList) (h : Gives "--block" t given)
    (haddresses : ∀ a ∈ addresses, a.toList.head? ≠ some '-') :
    g.texts "--block" (given ++ addresses) = [t] := by
  obtain ⟨front, hfront, hwords⟩ :=
    exists_words_given longName_block hname hmark h (words_eq_plain haddresses)
  rw [Grammar.texts, hwords]
  dsimp only
  rw [textsOf_given hfront, textsOf_plain]

/-- Its text is the only one for the block. -/
theorem blockTexts_of_blockLine (settings : Settings) {args : List String}
    (h : BlockLine t addresses args) (haddresses : ∀ a ∈ addresses, a.toList.head? ≠ some '-') :
    blockTexts platform settings args = [t] := by
  cases h with
  | analyze block =>
      obtain ⟨ws, hws⟩ := exists_words_outer platform settings block haddresses
      rw [blockTexts, parse_outer_of_words platform settings (by decide) hws]
      exact texts_given (by rw [names_analyze]; decide) (by rw [names_analyze]; decide) block
        haddresses
  | compare block =>
      obtain ⟨ws, hws⟩ := exists_words_outer platform settings block haddresses
      rw [blockTexts, parse_outer_of_words platform settings (by decide) hws]
      exact texts_given (by rw [names_compare]; decide) (by rw [names_compare]; decide) block
        haddresses

end

theorem eq_invalidValue_of_blockOf {keeps : Bool} {t message : String}
    (h : blockOf (valueOf? keeps t) = .error message) :
    message = invalidValue "block_identifier" t := by
  unfold valueOf? at h
  split at h
  · cases h
  · rw [blockOf] at h
    cases ht : Block.ofText t with
    | ok b =>
        rw [ht] at h
        cases h
    | error e =>
        rw [ht] at h
        cases h
        rfl

variable {σ : Type}

/-- **The block that a node is asked about.**  A fetcher that is given a block asks about that one
at every address in a good form, unless it is block zero or the empty tag; then it asks about its
default.  The questions of an accepted command line are about its addresses at the block that its
last text for the block is sent as, and about the chain at most.  A text that is sent is accepted,
and every other one is refused. -/
theorem run_block (s : Surroundings σ) (hs : Usable s.settings) (l : Line σ Binary64) :
    (∀ (f : Fetcher σ Binary64) (b : Block) (addresses : List String),
      questions (f.codes addresses (some b) l).2.events = questions l.events ++
        asked f.checksum (if b = .number 0 ∨ b = .tag "" then f.defaultBlock else b)
          addresses ∧
      ∀ a, questions (f.code a (some b) l).2.events = questions l.events ++
        asked f.checksum (if b = .number 0 ∨ b = .tag "" then f.defaultBlock else b)
          [a]) ∧
    (∀ args level request,
      Invocation.parse s.platform s.settings args = .ok ⟨some level, request⟩ →
      Text.upper level ∈ logLevels →
      ∀ t, (blockTexts s.platform s.settings args).getLast? = some t →
      ∃ b chain, Sent s.platform.keepsDashes (.tag s.settings.blockTag) t b ∧
        (∀ q ∈ chain, q = .chain) ∧
        questions (run s args l).line.events =
          questions l.events ++ asked s.checksum b request.addresses ++ chain) ∧
    ∀ t addresses args, BlockLine t addresses args →
      (∀ a ∈ addresses, a.toList.head? ≠ some '-') →
      blockTexts s.platform s.settings args = [t] ∧
      ((∃ b, Sent s.platform.keepsDashes (.tag s.settings.blockTag) t b) →
        ∃ request, request.addresses = addresses ∧
          Invocation.parse s.platform s.settings args =
            .ok ⟨some s.settings.logLevel, request⟩) ∧
      ((¬ ∃ b, Sent s.platform.keepsDashes (.tag s.settings.blockTag) t b) → ∃ program,
        Invocation.parse s.platform s.settings args = .error (.usage program
          ("argument --block: " ++ invalidValue "block_identifier" t))) := by
  refine ⟨fun f b addresses => ⟨?_, fun a => ?_⟩, fun args level request hparse hlevel t ht => ?_,
    fun t addresses args hline haddresses => ?_⟩
  · rw [Fetcher.questions_codes, asked_eq_filterMap]
    rfl
  · rw [Fetcher.questions_code_eq_asked]
    rfl
  · have hblock := blockOf_of_parse_invocation hparse ht
    obtain ⟨chain, hchain, hquestions⟩ := questions_request hs request l
    refine ⟨_, chain, sent_iff.mpr ⟨request.block, hblock, rfl⟩, hchain, ?_⟩
    rw [run_of_parse hparse hlevel, hquestions]
  · obtain ⟨program, request, haddresses', hparse⟩ :=
      parse_of_blockLine s.platform s.settings hline haddresses
    refine ⟨blockTexts_of_blockLine s.platform s.settings hline haddresses, ?_, fun hnone => ?_⟩
    · rintro ⟨b, hb⟩
      obtain ⟨given, hgiven, -⟩ := sent_iff.mp hb
      rw [hgiven] at hparse
      exact ⟨request given, haddresses' given, hparse⟩
    · -- the option refuses exactly the texts that are not sent
      cases hmade : blockOf (valueOf? s.platform.keepsDashes t) with
      | ok given => exact absurd ⟨_, sent_iff.mpr ⟨given, hmade, rfl⟩⟩ hnone
      | error message =>
          rw [hmade, eq_invalidValue_of_blockOf hmade] at hparse
          exact ⟨program, hparse⟩

/-- A row of digits is sent as its number. -/
theorem run_block_chainless : Usable chainless.settings ∧
    ∃ chain, (∀ q ∈ chain, q = .chain) ∧
      questions (run chainless ["analyze", "--block", "256",
        "0xaaaaaaaaaaaaaaaaaaaaaaaaaaaaaaaaaaaaaaaa"] ⟨1000, 0, (), []⟩).line.events =
      asked chainless.checksum (.number 256) ["0xaaaaaaaaaaaaaaaaaaaaaaaaaaaaaaaaaaaaaaaa"] ++
        chain := by
  obtain ⟨-, hrun, hlines⟩ := run_block chainless usable_default ⟨1000, 0, (), []⟩
  have hsent : Sent false (.tag "latest") "256" (.number 256) := by
    refine .number ⟨by decide, [2, 5, 6], ?_, by decide⟩ (by decide) (by decide)
    exact .cons rfl (.cons rfl (.cons rfl .nil))
  have hline : BlockLine "256" ["0xaaaaaaaaaaaaaaaaaaaaaaaaaaaaaaaaaaaaaaaa"]
      ["analyze", "--block", "256", "0xaaaaaaaaaaaaaaaaaaaaaaaaaaaaaaaaaaaaaaaa"] :=
    @BlockLine.analyze "256" ["--block", "256"] _ (.apart (by decide))
  obtain ⟨htexts, hok, -⟩ := hlines _ _ _ hline (by decide)
  obtain ⟨request, haddresses, hparse⟩ := hok ⟨_, hsent⟩
  obtain ⟨b, chain, hb, hchain, hquestions⟩ := hrun _ _ request hparse usable_default.level "256"
    (by rw [htexts]; rfl)
  obtain rfl := hb.unique hsent
  rw [haddresses] at hquestions
  exact ⟨usable_default, chain, hchain, hquestions⟩

/-- Block zero is not asked about, neither by a fetcher nor from the command line. -/
theorem not_asked_zero :
    questions (steady.code "0xaaaaaaaaaaaaaaaaaaaaaaaaaaaaaaaaaaaaaaaa" (some (.number 0))
        ⟨1000, 0, (), []⟩).2.events =
      [.code "0xaAaAaAaaAaAaAaaAaAAAAAAAAaaaAaAaAaaAaaAa" (.tag "latest")] ∧
    questions (run chainless ["analyze", "--block", "0",
        "0xaaaaaaaaaaaaaaaaaaaaaaaaaaaaaaaaaaaaaaaa"] ⟨1000, 0, (), []⟩).line.events =
      [.code "0xaAaAaAaaAaAaAaaAaAAAAAAAAaaaAaAaAaaAaaAa" (.tag "latest")] := by
  have hasked : asked Address.checksumText (.tag "latest")
      ["0xaaaaaaaaaaaaaaaaaaaaaaaaaaaaaaaaaaaaaaaa"] =
      [.code "0xaAaAaAaaAaAaAaaAaAAAAAAAAaaaAaAaAaaAaaAa" (.tag "latest")] := by
    decide +kernel
  have hparse : Invocation.parse chainless.platform {} ["analyze", "--block", "0",
      "0xaaaaaaaaaaaaaaaaaaaaaaaaaaaaaaaaaaaaaaaa"] = .ok ⟨some "INFO", .analyze
      { address := "0xaaaaaaaaaaaaaaaaaaaaaaaaaaaaaaaaaaaaaaaa", block := some (.number 0) }⟩ := by
    decide +kernel
  constructor
  · rw [Fetcher.questions_code_eq_asked]
    exact hasked
  · have hrun := run_of_parse (s := chainless) hparse usable_default.level ⟨1000, 0, (), []⟩
    rw [hrun, Request.run, questions_analyze (fetcherAt_eq usable_default none)]
    exact hasked

end ContractSurvey.CommandLine
