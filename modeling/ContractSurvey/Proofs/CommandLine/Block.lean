import ContractSurvey.Proofs.CommandLine.Asking
import ContractSurvey.Proofs.CommandLine.Value
import ContractSurvey.Proofs.Node.Block

/-!
# Proofs — CommandLine — Block

Which block a command line asks about.

* `blockOf_of_parse_invocation`: the block of an accepted command line is what the option makes of
  the last text it was given, in whatever way it was given.
* `sent_iff`: so a row of decimal digits is sent as its number and another text as it stands, except
  for zero, the empty text and, where they are no value, two dashes.
* `questions_request`: a request asks about its addresses at its block, and about the chain at most.
-/

namespace ContractSurvey.CommandLine

variable {σ : Type} {s : Surroundings σ} {f : Fetcher σ Binary64} {l : Line σ Binary64}

/-! ### The text of a block -/

/-- The block that a text of the command line is asked about.  Zero and nothing leave it to the
default, and so do two dashes where they are no value. -/
inductive Sent (keeps : Bool) (default : Block) : String → Block → Prop
  | number {t : String} {n : Nat} (writes : Text.WritesNumber t.toList n)
      (short : t.toList.length ≤ digitLimit) (positive : n ≠ 0) : Sent keeps default t (.number n)
  | tag {t : String} (other : ∃ c ∈ t.toList, Text.isDigit c = false)
      (ne_dashes : keeps = false → t ≠ "--") : Sent keeps default t (.tag t)
  | zero {t : String} (writes : Text.WritesNumber t.toList 0)
      (short : t.toList.length ≤ digitLimit) : Sent keeps default t default
  | empty : Sent keeps default "" default
  | dashes (drops : keeps = false) : Sent keeps default "--" default

/-- What the block option makes of what it is given. -/
def blockOf : Option String → Except String (Option Block)
  | none => .ok none
  | some t => ((Block.ofText t).mapError fun _ => invalidValue "block_identifier" t).map some

theorem blockOf_some_eq_ok_iff {t : String} {given : Option Block} :
    blockOf (some t) = .ok given ↔ ∃ b, Block.Names t b ∧ some b = given := by
  rw [blockOf, map_eq_ok_iff]
  refine exists_congr fun b => and_congr_left fun _ => ?_
  rw [← Block.ofText_eq_ok_iff]
  cases Block.ofText t <;> simp [Except.mapError]

theorem ne_dashes_of_writesNumber {t : String} {n : Nat} (h : Text.WritesNumber t.toList n) :
    t ≠ "--" := by
  rintro rfl
  have hdash := h.isSome '-' (by decide)
  cases hdash

theorem ne_empty_of_other {t : String} (h : ∃ c ∈ t.toList, Text.isDigit c = false) : t ≠ "" := by
  rintro rfl
  obtain ⟨c, hc, -⟩ := h
  cases hc

theorem valueOf?_eq_some {keeps : Bool} {t : String} (h : keeps = false → t ≠ "--") :
    valueOf? keeps t = some t := by
  cases keeps with
  | true => simp [valueOf?]
  | false => simp [valueOf?, h rfl]

/-- What a text of the option is sent as is the block of a question with what the option makes of
the text. -/
theorem sent_iff {keeps : Bool} {default : Block} {t : String} {b : Block} :
    Sent keeps default t b ↔
      ∃ given, blockOf (valueOf? keeps t) = .ok given ∧ blockOr default given = b := by
  have hnamed {t : String} {b : Block} (hvalue : keeps = false → t ≠ "--")
      (h : Block.Names t b) : blockOf (valueOf? keeps t) = .ok (some b) := by
    rw [valueOf?_eq_some hvalue, blockOf_some_eq_ok_iff]
    exact ⟨b, h, rfl⟩
  constructor
  · intro h
    cases h with
    | @number _ n writes short positive =>
        refine ⟨_, hnamed (fun _ => ne_dashes_of_writesNumber writes) (.number writes short), ?_⟩
        exact if_neg (by simpa using positive)
    | tag other ne_dashes =>
        refine ⟨_, hnamed ne_dashes (.tag other), ?_⟩
        exact if_neg (by simpa using ne_empty_of_other other)
    | zero writes short =>
        exact ⟨_, hnamed (fun _ => ne_dashes_of_writesNumber writes) (.number writes short), rfl⟩
    | empty => exact ⟨_, hnamed (fun _ => by decide) .empty, rfl⟩
    | dashes drops =>
        subst drops
        exact ⟨none, rfl, rfl⟩
  · rintro ⟨given, hgiven, rfl⟩
    by_cases hdashes : keeps = false ∧ t = "--"
    · obtain ⟨rfl, rfl⟩ := hdashes
      cases hgiven
      exact .dashes rfl
    · have hvalue : keeps = false → t ≠ "--" := fun hkeeps ht => hdashes ⟨hkeeps, ht⟩
      rw [valueOf?_eq_some hvalue, blockOf_some_eq_ok_iff] at hgiven
      obtain ⟨b, hnames, rfl⟩ := hgiven
      rw [blockOr]
      cases hnames with
      | @number _ n writes short =>
          by_cases hn : n = 0
          · subst hn
            exact .zero writes short
          · rw [if_neg (by simpa using hn)]
            exact .number writes short hn
      | tag other =>
          rw [if_neg (by simpa using ne_empty_of_other other)]
          exact .tag other hvalue
      | empty => exact .empty

theorem Sent.unique {default : Block} {t : String} {b b' : Block} (h : Sent keeps default t b)
    (h' : Sent keeps default t b') : b = b' := by
  obtain ⟨given, hgiven, rfl⟩ := sent_iff.mp h
  obtain ⟨given', hgiven', rfl⟩ := sent_iff.mp h'
  rw [hgiven] at hgiven'
  cases hgiven'
  rfl

/-! ### The block of an accepted command line -/

theorem enter_blockOption {α : Type} (set : Option Block → α → α) (given : Option String)
    (values : α) : (blockOption set).enter given values =
      (blockOf given).map fun b => set b values := by
  cases given with
  | none => rfl
  | some t =>
      simp only [blockOption, readOption, blockOf]
      cases (Block.ofText t).mapError fun _ => invalidValue "block_identifier" t <;> rfl

section

variable {α β γ : Type} {part : α → γ}

/-- Entering a value of the option leaves a part of the values as it is. -/
def Leaves (o : ValueOption α) (part : α → γ) : Prop :=
  ∀ given values values', o.enter given values = .ok values' → part values' = part values

theorem leaves_textOption {name : String} {set : Option String → α → α}
    (h : ∀ v values, part (set v values) = part values) : Leaves (textOption name set) part := by
  intro given values values' henter
  cases henter
  exact h given values

theorem leaves_readOption {ν : Type} {name : String} {read : String → Except String ν}
    {set : Option ν → α → α} (h : ∀ v values, part (set v values) = part values) :
    Leaves (readOption name read set) part := by
  intro given values values' henter
  cases given with
  | none =>
      cases henter
      exact h none values
  | some t =>
      obtain ⟨v, -, rfl⟩ := map_eq_ok_iff.mp henter
      exact h (some v) values

/-- A level with the block option, whose other options leave the block as it is. -/
theorem reads_block {g : Grammar α β} {part : α → Option Block} (set : Option Block → α → α)
    (hset : ∀ b values, part (set b values) = b)
    (h : ∀ o ∈ g.options, o = blockOption set ∨ o.name ≠ "--block" ∧ Leaves o part) :
    g.Reads "--block" blockOf part where
  own := by
    intro o ho hname given values values' henter
    rcases h o ho with rfl | hother
    · rw [enter_blockOption] at henter
      obtain ⟨b, hb, rfl⟩ := map_eq_ok_iff.mp henter
      rw [hset, hb]
    · exact absurd hname hother.1
  others := by
    intro o ho hname given values values' henter
    rcases h o ho with rfl | hother
    · exact absurd rfl hname
    · exact hother.2 given values values' henter

end

theorem reads_analyze (platform : Platform) :
    (analyzeGrammar platform).Reads "--block" blockOf (·.block) := by
  refine reads_block (fun b r => { r with block := b }) (fun _ _ => rfl) fun o ho => ?_
  simp only [analyzeGrammar, List.mem_cons, List.not_mem_nil, or_false] at ho
  rcases ho with rfl | rfl | rfl
  · exact .inr ⟨by decide, leaves_textOption fun _ _ => rfl⟩
  · exact .inr ⟨by decide, leaves_textOption fun _ _ => rfl⟩
  · exact .inl rfl

theorem reads_compare (platform : Platform) (settings : Settings) :
    (compareGrammar platform settings).Reads "--block" blockOf (·.block) := by
  refine reads_block (fun b r => { r with block := b }) (fun _ _ => rfl) fun o ho => ?_
  simp only [compareGrammar, List.mem_cons, List.not_mem_nil, or_false] at ho
  rcases ho with rfl | rfl | rfl | rfl | rfl | rfl
  · exact .inr ⟨by decide, leaves_readOption fun _ _ => rfl⟩
  · exact .inr ⟨by decide, leaves_textOption fun _ _ => rfl⟩
  · exact .inr ⟨by decide, leaves_readOption fun _ _ => rfl⟩
  · exact .inr ⟨by decide, leaves_textOption fun _ _ => rfl⟩
  · exact .inr ⟨by decide, leaves_textOption fun _ _ => rfl⟩
  · exact .inl rfl

/-- The texts of the block option in a command line, in their order. -/
def blockTexts (platform : Platform) (settings : Settings) (args : List String) : List String :=
  match (outerGrammar platform settings).parse args with
  | .ok ((_, "analyze" :: args), _) => (analyzeGrammar platform).texts "--block" args
  | .ok ((_, "compare" :: args), _) => (compareGrammar platform settings).texts "--block" args
  | _ => []

namespace Request

/-- The addresses that a request is about on the chain. -/
def addresses : Request → List String
  | .analyze r => [r.address]
  | .compare r => r.addresses
  | .inspect _ => []

/-- The block that a request names, if any. -/
def block : Request → Option Block
  | .analyze r => r.block
  | .compare r => r.block
  | .inspect _ => none

end Request

theorem block_of_analyzeGrammar {platform : Platform} {args extras : List String}
    {r : AnalyzeRequest} (h : (analyzeGrammar platform).parse args = .ok (r, extras)) {t : String}
    (ht : ((analyzeGrammar platform).texts "--block" args).getLast? = some t) :
    blockOf (valueOf? platform.keepsDashes t) = .ok r.block := by
  have hmem : blockOption (fun b r => { r with block := b }) ∈
      (analyzeGrammar platform).options := by
    simp [analyzeGrammar]
  have hone : (analyzeGrammar platform).operands ≠ .rest := by
    rintro ⟨⟩
  obtain ⟨values, operands, hfinish, hblock⟩ :=
    Grammar.read_of_parse hone (reads_analyze platform) hmem rfl h ht
  obtain ⟨address, -, rfl⟩ := Option.map_eq_some_iff.mp hfinish
  exact hblock

theorem block_of_compareGrammar {platform : Platform} {settings : Settings}
    {args extras : List String} {r : CompareRequest}
    (h : (compareGrammar platform settings).parse args = .ok (r, extras)) {t : String}
    (ht : ((compareGrammar platform settings).texts "--block" args).getLast? = some t) :
    blockOf (valueOf? platform.keepsDashes t) = .ok r.block := by
  have hmem : blockOption (fun b r => { r with block := b }) ∈
      (compareGrammar platform settings).options := by
    simp [compareGrammar]
  have hmany : (compareGrammar platform settings).operands ≠ .rest := by
    rintro ⟨⟩
  obtain ⟨values, operands, hfinish, hblock⟩ :=
    Grammar.read_of_parse hmany (reads_compare platform settings) hmem rfl h ht
  rw [compareGrammar] at hfinish
  dsimp only at hfinish
  split at hfinish
  · cases hfinish
  · cases hfinish
    exact hblock

/-- The block that an accepted command line names is what the option makes of its last text. -/
theorem blockOf_of_parse_invocation {platform : Platform} {settings : Settings}
    {args : List String} {i : Invocation} (h : Invocation.parse platform settings args = .ok i)
    {t : String} (ht : (blockTexts platform settings args).getLast? = some t) :
    blockOf (valueOf? platform.keepsDashes t) = .ok i.request.block := by
  rw [Invocation.parse] at h
  obtain ⟨⟨⟨level, operands⟩, outer⟩, houter, h⟩ := bind_eq_ok_iff.mp h
  obtain ⟨⟨request, inner⟩, hrequest, h⟩ := bind_eq_ok_iff.mp h
  have hi : i.request = request := by
    dsimp only at h
    split at h
    · cases h
      rfl
    · cases h
  rw [hi]
  -- the arguments behind the word are read by the level that `blockTexts` reads them by
  rw [blockTexts, houter] at ht
  split at ht
  · next hparsed =>
      cases hparsed
      rw [List.headD_cons, List.tail_cons, Request.parse, if_pos rfl] at hrequest
      obtain ⟨⟨r, extras⟩, hparse, hr⟩ := map_eq_ok_iff.mp hrequest
      cases hr
      exact block_of_analyzeGrammar hparse ht
  · next hparsed =>
      cases hparsed
      rw [List.headD_cons, List.tail_cons, Request.parse, if_neg (by decide), if_pos rfl]
        at hrequest
      obtain ⟨⟨r, extras⟩, hparse, hr⟩ := map_eq_ok_iff.mp hrequest
      cases hr
      exact block_of_compareGrammar hparse ht
  · cases ht

/-! ### The questions of a request -/

theorem questions_analyze {r : AnalyzeRequest} (hf : fetcherAt s r.url.text? = .ok f) :
    questions (analyze s r l).line.events =
      questions l.events ++ asked f.checksum (blockOr f.defaultBlock r.block) [r.address] := by
  rw [analyze, hf]
  exact f.questions_code_eq_asked r.address r.block l

/-- The network is a question about the chain at most. -/
theorem questions_networkFor (given : Option String) (batch : Batch) (l : Line σ Binary64) :
    ∃ chain, (∀ q ∈ chain, q = .chain) ∧
      questions (networkFor f given batch l).2.events = questions l.events ++ chain := by
  have hname : questions (f.networkName l).2.events = questions l.events ++ [.chain] :=
    Line.questions_ask _ _ _ l
  rw [networkFor]
  split
  · exact ⟨[], by simp, (List.append_nil _).symm⟩
  · refine ⟨[.chain], by simp, ?_⟩
    rw [← hname]
    split
    · next h => rw [h]
    · next h =>
        rw [h]
        dsimp only
        split <;> rfl

/-- The line of a comparison is that of its batch if the failures cannot be shown, and else that of
its look for the network. -/
theorem line_compare {r : CompareRequest} (hf : fetcherAt s r.url.text? = .ok f) :
    (compare s r l).line = (f.codes r.addresses r.block l).2 ∨
      (compare s r l).line = (networkFor f r.network (f.codes r.addresses r.block l).1
        (f.codes r.addresses r.block l).2).2 := by
  rw [compare, hf]
  dsimp only
  split
  · exact .inl rfl
  · exact .inr rfl

theorem questions_compare {r : CompareRequest} (hf : fetcherAt s r.url.text? = .ok f) :
    ∃ chain, (∀ q ∈ chain, q = .chain) ∧
      questions (compare s r l).line.events = questions l.events ++
        asked f.checksum (blockOr f.defaultBlock r.block) r.addresses ++ chain := by
  rcases line_compare hf with hline | hline
  · refine ⟨[], by simp, ?_⟩
    rw [hline, Fetcher.questions_codes, asked_eq_filterMap, List.append_nil]
  · obtain ⟨chain, hchain, hquestions⟩ := questions_networkFor (f := f) r.network
      (f.codes r.addresses r.block l).1 (f.codes r.addresses r.block l).2
    refine ⟨chain, hchain, ?_⟩
    rw [hline, hquestions, Fetcher.questions_codes, asked_eq_filterMap]

theorem line_inspect (r : InspectRequest) : (inspect s r l).line = l := rfl

theorem exists_fetcherAt (hs : Usable s.settings) (url : Option String) :
    ∃ f, fetcherAt s url = .ok f ∧ f.defaultBlock = .tag s.settings.blockTag ∧
      f.checksum = s.checksum :=
  ⟨_, fetcherAt_eq hs url, rfl, rfl⟩

/-- The questions of a request: about its addresses at its block, and at most one about the
chain. -/
theorem questions_request (hs : Usable s.settings) (request : Request) (l : Line σ Binary64) :
    ∃ chain, (∀ q ∈ chain, q = .chain) ∧
      questions (request.run s l).line.events = questions l.events ++
        asked s.checksum (blockOr (.tag s.settings.blockTag) request.block) request.addresses ++
          chain := by
  cases request with
  | analyze r =>
      obtain ⟨f, hf, hdefault, hchecksum⟩ := exists_fetcherAt hs r.url.text?
      refine ⟨[], by simp, ?_⟩
      rw [List.append_nil, ← hdefault, ← hchecksum]
      exact questions_analyze hf
  | compare r =>
      obtain ⟨f, hf, hdefault, hchecksum⟩ := exists_fetcherAt hs r.url.text?
      rw [← hdefault, ← hchecksum]
      exact questions_compare hf
  | inspect r =>
      refine ⟨[], by simp, ?_⟩
      rw [Request.run, line_inspect, List.append_nil]
      exact (List.append_nil _).symm

end ContractSurvey.CommandLine
