import ContractSurvey.Proofs.Address.Checksum
import ContractSurvey.Proofs.Bytecode.Sweep
import ContractSurvey.Proofs.CommandLine.Screen
import ContractSurvey.Proofs.Node.Batch
import ContractSurvey.Proofs.Profile.Pattern

/-!
# Proofs — Node — RoundTrip

The bytes that a node answers with, on their way through the text of a code.  A fetcher writes them
as digits behind a mark, and every reading of a code starts from its normal text, which is the
digits again (`Spells.of_text`): its size is the number of bytes, its hash is theirs, and the sweep
meets the instructions among them, with whatever zeros stand in front.  A profile takes its size,
hash and warnings from these readings (`Profile.exists_measures`).

No bytes are no code, so a code that was fetched is never the empty one that a profile refuses
(`Profile.ofCode_ne_error`), and a look at one contract does not come to that refusal
(`CommandLine.analyze_ne_survey`).  The main statement is `code_roundTrip`.
-/

namespace ContractSurvey

/-! ### Texts of bytes -/

namespace Bytecode

/-- What the readings of a code come to when its text is that of these bytes. -/
structure Spells (code : Option String) (bs : List UInt8) : Prop where
  bytes_eq : bytes (text code) = bs
  size_eq : size code = bs.length
  hash_eq : hash code = String.ofList (Hex.ofBytes (Sha256.digest bs))
  instructions_eq : instructions code = startsFrom 0 bs
  tallied : Tallied bs (opcodeCounts code)

theorem bytes_ofBytes (bs : List UInt8) : bytes (Hex.ofBytes bs) = bs := by
  rw [← List.append_nil (Hex.ofBytes bs), bytes_append]
  exact List.append_nil bs

/-- A code whose normal text is the digits of some bytes reads as these bytes. -/
theorem Spells.of_text {code : Option String} {bs : List UInt8} (h : text code = Hex.ofBytes bs) :
    Spells code bs := by
  have hbytes : bytes (text code) = bs := by rw [h, bytes_ofBytes]
  exact {
    bytes_eq := hbytes
    size_eq := by
      rw [size, h, Hex.length_ofBytes]
      omega
    hash_eq := by rw [hash, hbytes]
    instructions_eq := by rw [instructions, hbytes]
    tallied := by
      rw [opcodeCounts, instructions, hbytes]
      exact tallied_instructions bs }

theorem text_ofBytes (bs : List UInt8) :
    text (some ("0x" ++ String.ofList (Hex.ofBytes bs))) = Hex.ofBytes bs :=
  text_marked fun _ hc => Hex.isLower_of_mem_ofBytes hc

/-- The warnings of a code are the notable names that some instruction has. -/
theorem Spells.mem_opcodeFlags {code : Option String} {bs : List UInt8} (h : Spells code bs)
    (m : String) : m ∈ opcodeFlags code ↔ m ∈ Opcode.notable ∧ ∃ i, IsNamed bs m i := by
  have hcount : 0 < ((opcodeCounts code).get? m).getD 0 ↔ m ∈ (opcodeCounts code).keys := by
    rw [opcodeCounts, getD_tally, keys_tally, List.count_pos_iff, Sequence.mem_distinct]
  rw [opcodeFlags, List.mem_filter, decide_eq_true_iff, hcount, h.tallied.mem_keys]

end Bytecode

namespace Profile

/-- The profile has the size, the hash and the warnings of these bytes. -/
structure Measures (bs : List UInt8) (p : Profile) : Prop where
  size_eq : p.size = some (.whole bs.length)
  codeHash_eq : p.codeHash = some (String.ofList (Hex.ofBytes (Sha256.digest bs)))
  mem_opcodeFlags (m : String) :
    m ∈ p.opcodeFlags ↔ m ∈ Opcode.notable ∧ ∃ i, Bytecode.IsNamed bs m i

/-- The profile of a code that reads as some bytes measures these. -/
theorem exists_measures {code : Option String} {bs : List UInt8} (h : Bytecode.Spells code bs)
    (hempty : Bytecode.isEmpty code = false) (address : String) (name : Option String) :
    ∃ p, ofCode address code name = .ok p ∧ p.Measures bs := by
  obtain ⟨p, hp, hsize, hhash, hflags⟩ : ∃ p, ofCode address code name = .ok p ∧
      p.size = some (.whole (Bytecode.size code)) ∧ p.codeHash = some (Bytecode.hash code) ∧
      p.opcodeFlags = Bytecode.opcodeFlags code := by
    simp [ofCode, hempty]
  exact ⟨p, hp, {
    size_eq := by rw [hsize, h.size_eq]
    codeHash_eq := by rw [hhash, h.hash_eq]
    mem_opcodeFlags := fun m => by rw [hflags, h.mem_opcodeFlags] }⟩

theorem ofCode_ne_error {code : Option String} (h : Bytecode.isEmpty code = false)
    (address : String) (name : Option String) (e : SurveyError) :
    ofCode address code name ≠ .error e := by
  obtain ⟨p, hp, -⟩ := exists_ofCode code address name h
  rw [hp]
  exact nofun

end Profile

/-! ### Answers of a node -/

section

variable {σ τ : Type} [Add τ] [Sub τ] [LT τ] [DecidableLT τ]

theorem Line.node_pause (interval : τ) (l : Line σ τ) : (l.pause interval).node = l.node := by
  rw [pause]
  split <;> rfl

/-- A node is asked in the state in which the line has it, however long the pause before. -/
theorem Line.result_ask {α : Type} (interval : τ) (q : Question) (answer : σ → Reply τ α × σ)
    (l : Line σ τ) : (l.ask interval q answer).1 = (answer l.node).1.result := by
  rw [ask, node_pause]

namespace Fetcher

variable {f : Fetcher σ τ}

/-- What a node answers about an address. -/
def answer (f : Fetcher σ τ) (checksum : String) (block : Option Block) (l : Line σ τ) :
    Except NodeFault (List UInt8) :=
  (f.node.code checksum (f.blockFor block) l.node).1.result

theorem code_eq_received {address c : String} (h : f.checksum address = .ok c)
    (block : Option Block) (l : Line σ τ) :
    (f.code address block l).1 = received address (f.blockFor block) (f.answer c block l) := by
  rw [code_of_ok h]
  exact congrArg (received address (f.blockFor block)) (Line.result_ask _ _ _ l)

end Fetcher

namespace CommandLine

theorem fetchFailure_ne_survey (failure : FetchError) (e : SurveyError) :
    (fetchFailure failure).2 ≠ .failed (.survey e) := by
  cases failure with
  | node fault =>
      unfold fetchFailure
      dsimp only
      split
      · exact nofun
      · split <;> exact nofun
  | address m => exact nofun
  | noCode a b => exact nofun
  | digits e' => exact nofun

theorem presentThen_ne_survey {s : Surroundings σ} {items : List (Except QuantityError Shown)}
    {next : List Act × Ending} {e : SurveyError} (h : next.2 ≠ .failed (.survey e)) :
    (presentThen s items next).2 ≠ .failed (.survey e) := by
  rcases presentThen_cases s items next with ⟨failure, hwithheld, hstop⟩ | ⟨-, hgoes⟩
  · rw [hstop]
    exact fun heq => hwithheld.ne_survey e (Ending.failed.inj heq)
  · rwa [hgoes]

theorem analyze_ne_survey (s : Surroundings σ) (r : AnalyzeRequest) (l : Line σ Binary64)
    (e : SurveyError) : (analyze s r l).ending ≠ .failed (.survey e) := by
  unfold analyze
  split
  · exact nofun
  · next f hf =>
      dsimp only
      split
      · next failure hcode => exact presentThen_ne_survey (fetchFailure_ne_survey failure e)
      · next code hok =>
          split
          · next e' hrefused =>
              exact absurd hrefused (Profile.ofCode_ne_error (Fetcher.code_eq_ok hok).2 _ _ _)
          · exact presentThen_ne_survey nofun

end CommandLine

namespace Fetcher

/-- **The round trip of a node's bytes.**  An answer without bytes is no code, and is said to be
that wherever the block has a text to say it with.  Bytes are fetched as a code whose readings are
those of the bytes themselves, and a profile of that code, for whatever address and name, has their
size, hash and warnings.  No code that was fetched, alone or in a batch, is refused for being empty,
and a look at one contract never ends so. -/
theorem code_roundTrip (f : Fetcher σ τ) {address c : String} (h : f.checksum address = .ok c)
    (block : Option Block) (l : Line σ τ) {bs : List UInt8} (hbs : f.answer c block l = .ok bs) :
    (bs = [] → ∃ e, (f.code address block l).1 = .error e ∧
      (∀ shown, (f.blockFor block).text = .ok shown → e = .noCode address shown) ∧
      ∀ fault, (f.blockFor block).text = .error fault → e = .digits fault) ∧
    (bs ≠ [] → ∃ code, (f.code address block l).1 = .ok code ∧ Bytecode.Spells (some code) bs ∧
      ∀ address' name,
        ∃ p, Profile.ofCode address' (some code) name = .ok p ∧ p.Measures bs) ∧
    (∀ address block l code, (f.code address block l).1 = .ok code →
      ∀ address' name e, Profile.ofCode address' (some code) name ≠ .error e) ∧
    (∀ addresses block l, ∀ fetched ∈ (f.codes addresses block l).1.codes,
      ∀ address' name e, Profile.ofCode address' (some fetched.2) name ≠ .error e) ∧
    ∀ (s : CommandLine.Surroundings σ) r l e,
      (CommandLine.analyze s r l).ending ≠ .failed (.survey e) := by
  have hcode : (f.code address block l).1 = received address (f.blockFor block) (.ok bs) :=
    hbs ▸ code_eq_received h block l
  refine ⟨?_, ?_, fun _ _ _ _ hok => Profile.ofCode_ne_error (code_eq_ok hok).2,
    fun _ _ _ _ hfetched => Profile.ofCode_ne_error (code_eq_ok_of_mem_codes hfetched).2,
    CommandLine.analyze_ne_survey⟩
  · rintro rfl
    refine ⟨_, hcode, fun shown hshown => ?_, fun fault hfault => ?_⟩
    · rw [FetchError.ofMissing, hshown]
    · rw [FetchError.ofMissing, hfault]
  · intro hne
    have hspells := Bytecode.Spells.of_text (Bytecode.text_ofBytes bs)
    have hok : (f.code address block l).1 = .ok ("0x" ++ String.ofList (Hex.ofBytes bs)) := by
      rw [hcode, received, if_neg (by simpa using hne)]
    exact ⟨_, hok, hspells, Profile.exists_measures hspells (code_eq_ok hok).2⟩

/-- Has the same code everywhere: a `DELEGATECALL` between a zero and a byte with a leading zero. -/
def delegating : Fetcher Unit Nat where
  node :=
    { code := fun _ _ _ => (⟨.ok [0x00, 0xf4, 0x0a], 0⟩, ())
      chain := fun _ => (⟨.ok none, 0⟩, ()) }
  interval := 0
  defaultBlock := .tag "latest"
  checksum := Address.checksumText

/-- The zeros count, and the instruction between them is one to warn of. -/
theorem code_roundTrip_delegating : ∃ c,
    delegating.checksum "0xaaaaaaaaaaaaaaaaaaaaaaaaaaaaaaaaaaaaaaaa" = .ok c ∧
    delegating.answer c none ⟨1000, 0, (), []⟩ = .ok [0x00, 0xf4, 0x0a] ∧
    ∃ code p,
      (delegating.code "0xaaaaaaaaaaaaaaaaaaaaaaaaaaaaaaaaaaaaaaaa" none ⟨1000, 0, (), []⟩).1 =
        .ok code ∧
      Profile.ofCode "0xab" (some code) none = .ok p ∧ p.size = some (.whole 3) ∧
      "DELEGATECALL" ∈ p.opcodeFlags := by
  have hvalid : Address.IsValid "0xaaaaaaaaaaaaaaaaaaaaaaaaaaaaaaaaaaaaaaaa" :=
    ⟨List.all_eq_true.mp (by decide), by decide⟩
  obtain ⟨c, hc⟩ :
      ∃ c, delegating.checksum "0xaaaaaaaaaaaaaaaaaaaaaaaaaaaaaaaaaaaaaaaa" = .ok c :=
    (Address.isChecksum_checksumText.accepts _).mpr hvalid
  obtain ⟨-, hbytes, -⟩ := code_roundTrip delegating hc none ⟨1000, 0, (), []⟩ rfl
  obtain ⟨code, hcode, -, hprofile⟩ := hbytes (by simp)
  obtain ⟨p, hp, hmeasures⟩ := hprofile "0xab" none
  refine ⟨c, hc, rfl, code, p, hcode, hp, hmeasures.size_eq, ?_⟩
  rw [hmeasures.mem_opcodeFlags]
  refine ⟨by decide, 1, .single ⟨0x00, 0, rfl, ?_, rfl⟩, 0xf4, rfl, by decide⟩
  exact Opcode.carries_iff.mpr (by decide)

end Fetcher

end

end ContractSurvey
