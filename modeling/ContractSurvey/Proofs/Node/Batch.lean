import ContractSurvey.Address.Checksum
import ContractSurvey.Node.Fetcher
import ContractSurvey.Proofs.Bytecode.Text
import ContractSurvey.Proofs.Sequence.Ledger
import Mathlib.Logic.Basic

/-!
# Proofs — Node — Batch

Where the addresses of a batch end up.  What came of each request enters the codes or the failures
of the batch (`mem_side_record`), and nothing ever leaves them, so in the end an address is among
the codes if one of its requests succeeded and among the failures if one failed (`mem_side_codes`).
A node may answer the same question differently the next time, so a repeated address can be on both
sides (`not_oneSided_unsteady`).  The main statement is `codes_sides`: every address that was asked
for is on some side, and it is on one side only exactly if its requests agree, as those of an
address that is not repeated do.
-/

namespace ContractSurvey

/-! ### One outcome -/

namespace Batch

/-- The address has a code or a failure, but not both. -/
def OneSided (b : Batch) (a : String) : Prop := Xor (a ∈ b.codes.keys) (a ∈ b.failures.keys)

/-- The codes of a batch, or its failures. -/
def side (b : Batch) : Bool → Ledger String String
  | true => b.codes
  | false => b.failures

/-- An outcome enters its address on its own side and leaves the other side as it is. -/
theorem mem_side_record (b : Batch) (x : String) (r : Except FetchError String) {ok : Bool}
    {a : String} :
    a ∈ ((b.record x r).side ok).keys ↔ a ∈ (b.side ok).keys ∨ a = x ∧ r.isOk = ok := by
  cases r with
  | ok code => cases ok <;> simp [record, side, Ledger.mem_keys_put, Except.isOk, Except.toBool,
      or_comm]
  | error e => cases ok <;> simp [record, side, Ledger.mem_keys_put, Except.isOk, Except.toBool,
      or_comm]

end Batch

/-! ### One request -/

namespace Fetcher

variable {σ τ : Type} [Add τ] [Sub τ] [LT τ] [DecidableLT τ] {f : Fetcher σ τ}

/-- What a request comes to when the node has answered. -/
def received (address : String) (b : Block) :
    Except NodeFault (List UInt8) → Except FetchError String
  | .error fault => .error (.node fault)
  | .ok bytes =>
    if bytes.isEmpty then .error (.ofMissing address b)
    else .ok ("0x" ++ String.ofList (Hex.ofBytes bytes))

/-- Code that was received is not empty. -/
theorem isEmpty_of_received {a code : String} {b : Block}
    {answer : Except NodeFault (List UInt8)} (h : received a b answer = .ok code) :
    Bytecode.isEmpty (some code) = false := by
  cases answer with
  | error fault => cases h
  | ok bytes =>
      rw [received] at h
      split at h
      · cases h
      · next hbytes =>
          cases h
          rw [Bytecode.isEmpty_ofBytes]
          simpa using hbytes

/-- The normal text of code that was received is the code without its mark. -/
theorem length_text_of_received {a code : String} {b : Block}
    {answer : Except NodeFault (List UInt8)} (h : received a b answer = .ok code) :
    (Bytecode.text (some code)).length ≤ code.length := by
  cases answer with
  | error fault => cases h
  | ok bytes =>
      rw [received] at h
      split at h
      · cases h
      · cases h
        rw [Bytecode.text_marked fun c hc => Hex.isLower_of_mem_ofBytes hc]
        simp

/-- An address in a bad form does not reach the node. -/
theorem code_of_error {a e : String} (h : f.checksum a = .error e)
    (block : Option Block) (l : Line σ τ) : f.code a block l = (.error (.address e), l) := by
  simp [code, h]

/-- An address is one question, and what comes of it is read off the answer. -/
theorem code_of_ok {a c : String} (h : f.checksum a = .ok c) (block : Option Block)
    (l : Line σ τ) :
    f.code a block l =
      let answered :=
        l.ask f.interval (.code c (f.blockFor block)) (f.node.code c (f.blockFor block))
      (received a (f.blockFor block) answered.1, answered.2) := by
  simp only [code, h]
  split
  · next hask => rw [hask, received]
  · next hask =>
      rw [hask, received]
      split <;> rfl

end Fetcher

/-! ### A run of requests -/

namespace Fetcher

variable {σ τ : Type} [Add τ] [Sub τ] [LT τ] [DecidableLT τ]

/-- What comes of the requests of a batch, one after the other. -/
def outcomes (f : Fetcher σ τ) (block : Option Block) :
    List String → Line σ τ → List (String × Except FetchError String)
  | [], _ => []
  | a :: rest, l => (a, (f.code a block l).1) :: f.outcomes block rest (f.code a block l).2

variable {f : Fetcher σ τ} {block : Option Block}

theorem map_fst_outcomes (f : Fetcher σ τ) (block : Option Block) (addresses : List String)
    (l : Line σ τ) : (f.outcomes block addresses l).map Prod.fst = addresses := by
  induction addresses generalizing l with
  | nil => rfl
  | cons a addresses ih => rw [outcomes, List.map_cons, ih]

/-- The batch is what the outcomes make of it, entered one after the other. -/
theorem extend_eq_foldl (addresses : List String) (b : Batch) (l : Line σ τ) :
    (f.extend block addresses b l).1 =
      (f.outcomes block addresses l).foldl (fun b o => b.record o.1 o.2) b := by
  induction addresses generalizing b l with
  | nil => rfl
  | cons a addresses ih => exact ih _ _

/-- A batch leaves the line as its requests do, one after the other. -/
theorem extend_line (addresses : List String) (block : Option Block) (b : Batch) (l : Line σ τ) :
    (f.extend block addresses b l).2 = addresses.foldl (fun l a => (f.code a block l).2) l := by
  induction addresses generalizing b l with
  | nil => rfl
  | cons a addresses ih => exact ih _ _

theorem mem_side_extend (addresses : List String) (b : Batch) (l : Line σ τ) {ok : Bool}
    {a : String} :
    a ∈ ((f.extend block addresses b l).1.side ok).keys ↔
      a ∈ (b.side ok).keys ∨ ∃ o ∈ f.outcomes block addresses l, a = o.1 ∧ o.2.isOk = ok := by
  rw [extend_eq_foldl]
  induction f.outcomes block addresses l generalizing b with
  | nil => simp
  | cons o os ih => simp [ih, Batch.mem_side_record, or_assoc]

/-- Only an address in a good form has code, and the code is not empty. -/
theorem code_eq_ok {a code : String} {l : Line σ τ} (h : (f.code a block l).1 = .ok code) :
    (∃ c, f.checksum a = .ok c) ∧ Bytecode.isEmpty (some code) = false := by
  cases ha : f.checksum a with
  | error e =>
      rw [code_of_error ha] at h
      cases h
  | ok c =>
      rw [code_of_ok ha] at h
      exact ⟨⟨c, rfl⟩, isEmpty_of_received h⟩

theorem exists_line_of_mem_outcomes {o : String × Except FetchError String}
    {addresses : List String} {l : Line σ τ} (h : o ∈ f.outcomes block addresses l) :
    ∃ l', (f.code o.1 block l').1 = o.2 := by
  induction addresses generalizing l with
  | nil => cases h
  | cons a addresses ih =>
      rcases List.mem_cons.mp h with rfl | h
      · exact ⟨l, rfl⟩
      · exact ih h

/-- A code of a batch came of one of the requests. -/
theorem mem_outcomes_of_mem_codes {p : String × String} {addresses : List String} {b : Batch}
    {l : Line σ τ} (h : p ∈ (f.extend block addresses b l).1.codes) :
    p ∈ b.codes ∨ (p.1, .ok p.2) ∈ f.outcomes block addresses l := by
  rw [extend_eq_foldl] at h
  generalize f.outcomes block addresses l = outcomes at h ⊢
  induction outcomes generalizing b with
  | nil => exact .inl h
  | cons o os ih =>
      obtain ⟨x, r⟩ := o
      rcases ih h with h | h
      · cases r with
        | ok code =>
            rcases Ledger.mem_put h with rfl | h
            · exact .inr List.mem_cons_self
            · exact .inl h
        | error e => exact .inl h
      · exact .inr (List.mem_cons_of_mem _ h)

/-- The requests of an address all succeed or all fail. -/
def Agree (outcomes : List (String × Except FetchError String)) (a : String) : Prop :=
  ∀ o ∈ outcomes, ∀ o' ∈ outcomes, o.1 = a → o'.1 = a → o.2.isOk = o'.2.isOk

variable {addresses : List String} {l : Line σ τ} {a : String}

/-- The requests of an address that is not repeated agree, there being only one. -/
theorem agree_of_count_eq_one (h : addresses.count a = 1) :
    Agree (f.outcomes block addresses l) a := by
  rw [← map_fst_outcomes f block addresses l, List.count_eq_countP, List.countP_map,
    List.countP_eq_length_filter, List.length_eq_one_iff] at h
  -- One outcome is left when the others are filtered out.
  obtain ⟨only, hfilter⟩ := h
  have hall : ∀ o ∈ f.outcomes block addresses l, o.1 = a → o = only := fun o ho ha =>
    List.mem_singleton.mp (hfilter ▸ List.mem_filter.mpr ⟨ho, by simpa using ha⟩)
  intro o ho o' ho' ha ha'
  rw [hall o ho ha, hall o' ho' ha']

theorem mem_side_codes (ok : Bool) : a ∈ ((f.codes addresses block l).1.side ok).keys ↔
    ∃ o ∈ f.outcomes block addresses l, a = o.1 ∧ o.2.isOk = ok := by
  rw [codes, mem_side_extend]
  cases ok <;> exact or_iff_right List.not_mem_nil

theorem mem_codes_iff : a ∈ (f.codes addresses block l).1.codes.keys ↔
    ∃ o ∈ f.outcomes block addresses l, a = o.1 ∧ o.2.isOk = true := mem_side_codes true

theorem mem_failures_iff : a ∈ (f.codes addresses block l).1.failures.keys ↔
    ∃ o ∈ f.outcomes block addresses l, a = o.1 ∧ o.2.isOk = false := mem_side_codes false

theorem code_eq_ok_of_mem_codes {p : String × String}
    (h : p ∈ (f.codes addresses block l).1.codes) :
    (∃ c, f.checksum p.1 = .ok c) ∧ Bytecode.isEmpty (some p.2) = false := by
  rcases mem_outcomes_of_mem_codes h with h | h
  · cases h
  · obtain ⟨l', hcode⟩ := exists_line_of_mem_outcomes h
    exact code_eq_ok hcode

theorem length_text_of_mem_codes {p : String × String}
    (h : p ∈ (f.codes addresses block l).1.codes) :
    (Bytecode.text (some p.2)).length ≤ p.2.length := by
  rcases mem_outcomes_of_mem_codes h with h | h
  · cases h
  · obtain ⟨l', hcode⟩ := exists_line_of_mem_outcomes h
    obtain ⟨c, hc⟩ := (code_eq_ok hcode).1
    rw [code_of_ok hc] at hcode
    exact length_text_of_received hcode

theorem mem_codes_or_mem_failures_iff :
    a ∈ (f.codes addresses block l).1.codes.keys ∨
      a ∈ (f.codes addresses block l).1.failures.keys ↔ a ∈ addresses := by
  have haddresses : a ∈ addresses ↔ ∃ o ∈ f.outcomes block addresses l, o.1 = a := by
    rw [← List.mem_map, map_fst_outcomes]
  rw [mem_codes_iff, mem_failures_iff, haddresses]
  constructor
  · rintro (⟨o, ho, rfl, -⟩ | ⟨o, ho, rfl, -⟩) <;> exact ⟨o, ho, rfl⟩
  · rintro ⟨o, ho, rfl⟩
    cases hok : o.2.isOk with
    | true => exact .inl ⟨o, ho, rfl, hok⟩
    | false => exact .inr ⟨o, ho, rfl, hok⟩

theorem mem_codes_and_mem_failures_iff :
    a ∈ (f.codes addresses block l).1.codes.keys ∧
      a ∈ (f.codes addresses block l).1.failures.keys ↔
        ¬ Agree (f.outcomes block addresses l) a := by
  rw [mem_codes_iff, mem_failures_iff]
  constructor
  · rintro ⟨⟨o, ho, rfl, hok⟩, o', ho', ha, hfail⟩ hagree
    rw [hagree o ho o' ho' rfl ha.symm, hfail] at hok
    cases hok
  · intro h
    simp only [Agree, not_forall] at h
    obtain ⟨o, ho, o', ho', rfl, ha, hne⟩ := h
    cases hok : o.2.isOk with
    | true => exact ⟨⟨o, ho, rfl, hok⟩, o', ho', ha.symm, by simpa [hok] using hne⟩
    | false => exact ⟨⟨o', ho', ha.symm, by simpa [hok] using hne⟩, o, ho, rfl, hok⟩

theorem oneSided_codes_iff :
    (f.codes addresses block l).1.OneSided a ↔
      a ∈ addresses ∧ Agree (f.outcomes block addresses l) a := by
  rw [Batch.OneSided, xor_iff_or_and_not_and, mem_codes_or_mem_failures_iff,
    mem_codes_and_mem_failures_iff, not_not]

/-- **The sides of a batch**: an address is on some side exactly if it was asked for, and on one
side only exactly if its requests agree, which they do if it was asked for once. -/
theorem codes_sides (f : Fetcher σ τ) (addresses : List String) (block : Option Block)
    (l : Line σ τ) (a : String) :
    (a ∈ (f.codes addresses block l).1.codes.keys ∨
      a ∈ (f.codes addresses block l).1.failures.keys ↔ a ∈ addresses) ∧
    ((f.codes addresses block l).1.OneSided a ↔
      a ∈ addresses ∧ Agree (f.outcomes block addresses l) a) ∧
    (addresses.count a = 1 → (f.codes addresses block l).1.OneSided a) := by
  refine ⟨mem_codes_or_mem_failures_iff, oneSided_codes_iff, fun h => ?_⟩
  exact oneSided_codes_iff.mpr
    ⟨List.count_pos_iff.mp (by omega), agree_of_count_eq_one h⟩

/-! ### An unsteady node -/

/-- Answers the first question and is not reached afterwards. -/
def unsteady : Fetcher Bool Nat where
  node :=
    { code := fun _ _ fresh =>
        (⟨if fresh then .ok [0x60, 0x80] else .error ⟨.connection, "rpc down"⟩, 0⟩, false)
      chain := fun fresh => (⟨.ok none, 0⟩, fresh) }
  interval := 0
  defaultBlock := .tag "latest"
  checksum := Address.checksumText

/-- What comes of three requests, the first and the last for one address. -/
def unsteadyBatch : Batch :=
  (unsteady.codes ["0xaaaaaaaaaaaaaaaaaaaaaaaaaaaaaaaaaaaaaaaa",
    "0xbbbbbbbbbbbbbbbbbbbbbbbbbbbbbbbbbbbbbbbb", "0xaaaaaaaaaaaaaaaaaaaaaaaaaaaaaaaaaaaaaaaa"]
    none ⟨1000, 0, true, []⟩).1

/-- The address that was asked for once is on one side. -/
theorem codes_sides_unsteady :
    ["0xaaaaaaaaaaaaaaaaaaaaaaaaaaaaaaaaaaaaaaaa", "0xbbbbbbbbbbbbbbbbbbbbbbbbbbbbbbbbbbbbbbbb",
      "0xaaaaaaaaaaaaaaaaaaaaaaaaaaaaaaaaaaaaaaaa"].count
        "0xbbbbbbbbbbbbbbbbbbbbbbbbbbbbbbbbbbbbbbbb" = 1 ∧
      unsteadyBatch.OneSided "0xbbbbbbbbbbbbbbbbbbbbbbbbbbbbbbbbbbbbbbbb" :=
  ⟨by decide, (codes_sides unsteady _ none _ _).2.2 (by decide)⟩

/-- The repeated address, whose requests do not agree, has both a code and a failure. -/
theorem not_oneSided_unsteady :
    "0xaaaaaaaaaaaaaaaaaaaaaaaaaaaaaaaaaaaaaaaa" ∈ unsteadyBatch.codes.keys ∧
      "0xaaaaaaaaaaaaaaaaaaaaaaaaaaaaaaaaaaaaaaaa" ∈ unsteadyBatch.failures.keys ∧
      ¬ unsteadyBatch.OneSided "0xaaaaaaaaaaaaaaaaaaaaaaaaaaaaaaaaaaaaaaaa" := by
  have hcode : "0xaaaaaaaaaaaaaaaaaaaaaaaaaaaaaaaaaaaaaaaa" ∈ unsteadyBatch.codes.keys := by
    decide +kernel
  have hfailure : "0xaaaaaaaaaaaaaaaaaaaaaaaaaaaaaaaaaaaaaaaa" ∈ unsteadyBatch.failures.keys := by
    decide +kernel
  exact ⟨hcode, hfailure, fun h => h.elim (·.2 hfailure) (·.2 hcode)⟩

end Fetcher

end ContractSurvey
