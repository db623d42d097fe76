import ContractSurvey.Node.Record
import ContractSurvey.Proofs.Node.Batch
import ContractSurvey.Proofs.Sequence.Order

/-!
# Proofs — Node — Steady

A batch against single requests.  A node is steady when what it answers about a code depends on the
address and the block alone (`Node.Steady`); how long it takes and what it keeps in mind are its own
affair.  At a steady node a request comes to the same on every line (`code_eq_of_steady`), so the
outcomes of a batch are those of single requests (`outcomes_of_steady`) and an address that comes
again enters nothing new.  Which questions reach a node does not depend on its answers at all: one
for each address in a good form, in their order (`questions_codes`).

The main statement is `codes_of_steady`: the codes and the failures of a batch are those of single
requests, each address where it was first asked for.
-/

namespace ContractSurvey

/-! ### Questions -/

@[simp] theorem questions_append {τ : Type} (es fs : List (Event τ)) :
    questions (es ++ fs) = questions es ++ questions fs := List.filterMap_append

namespace Line

variable {σ τ α : Type} [Add τ] [Sub τ] [LT τ] [DecidableLT τ]

/-- A pause is no question. -/
theorem questions_pause (interval : τ) (l : Line σ τ) :
    questions (l.pause interval).events = questions l.events := by
  rw [pause]
  split
  · rw [questions_append]
    exact List.append_nil _
  · rfl

theorem questions_ask (interval : τ) (q : Question) (answer : σ → Reply τ α × σ) (l : Line σ τ) :
    questions (l.ask interval q answer).2.events = questions l.events ++ [q] := by
  rw [ask, questions_append, questions_pause]
  rfl

end Line

namespace Fetcher

variable {σ τ : Type} [Add τ] [Sub τ] [LT τ] [DecidableLT τ] {f : Fetcher σ τ}

/-- The question that an address is; one in a bad form is none. -/
def question? (f : Fetcher σ τ) (block : Option Block) (address : String) : Option Question :=
  (f.checksum address).toOption.map fun c => .code c (f.blockFor block)

theorem questions_code (address : String) (block : Option Block) (l : Line σ τ) :
    questions (f.code address block l).2.events =
      questions l.events ++ (f.question? block address).toList := by
  rw [question?]
  cases h : f.checksum address with
  | error e =>
      rw [code_of_error h]
      exact (List.append_nil _).symm
  | ok c =>
      rw [code_of_ok h]
      exact Line.questions_ask _ _ _ l

/-- The questions of a batch: one for each address in a good form, in their order. -/
theorem questions_codes (addresses : List String) (block : Option Block) (l : Line σ τ) :
    questions (f.codes addresses block l).2.events =
      questions l.events ++ addresses.filterMap (f.question? block) := by
  rw [codes, extend_line]
  induction addresses generalizing l with
  | nil => exact (List.append_nil _).symm
  | cons a addresses ih =>
      rw [List.foldl_cons, ih, questions_code, List.append_assoc, List.filterMap_cons]
      cases f.question? block a <;> rfl

end Fetcher

/-! ### Outcomes -/

/-- What a node answers about a code depends on the address and the block alone. -/
def Node.Steady {σ τ : Type} (n : Node σ τ) : Prop :=
  ∀ address block s t, (n.code address block s).1.result = (n.code address block t).1.result

/-- Why there is no code. -/
def FetchError.reason? : Except FetchError String → Option String
  | .ok _ => none
  | .error e => some e.message

namespace Batch

/-- What an outcome enters among the codes, or among the failures. -/
def noted? : Bool → Except FetchError String → Option String
  | true => Except.toOption
  | false => FetchError.reason?

theorem side_record (b : Batch) (a : String) (r : Except FetchError String) (ok : Bool) :
    (b.record a r).side ok = (noted? ok r).elim (b.side ok) fun v => (b.side ok).put a v := by
  cases r <;> cases ok <;> rfl

/-- A batch of outcomes that depend on the address alone. -/
theorem side_foldl_record (outcome : String → Except FetchError String) (addresses : List String)
    (ok : Bool) :
    ((addresses.map fun a => (a, outcome a)).foldl (fun b o => b.record o.1 o.2) ({} : Batch)).side
        ok =
      Sequence.entries (fun a => noted? ok (outcome a)) addresses := by
  rw [← Sequence.foldl_put_eq_entries, List.foldl_map]
  -- one side of the batch goes its own way through the outcomes
  have hside : ∀ b : Batch, (addresses.foldl (fun b a => b.record a (outcome a)) b).side ok =
      addresses.foldl (fun l a => (noted? ok (outcome a)).elim l fun v => l.put a v)
        (b.side ok) := by
    induction addresses with
    | nil => exact fun b => rfl
    | cons a addresses ih =>
        intro b
        rw [List.foldl_cons, ih, side_record, List.foldl_cons]
  rw [hside]
  cases ok <;> rfl

end Batch

namespace Fetcher

variable {σ τ : Type} [Add τ] [Sub τ] [LT τ] [DecidableLT τ] {f : Fetcher σ τ}

/-- At a steady node a request comes to the same on every line. -/
theorem code_eq_of_steady (h : f.node.Steady) (address : String) (block : Option Block)
    (l l' : Line σ τ) : (f.code address block l).1 = (f.code address block l').1 := by
  cases ha : f.checksum address with
  | error e => rw [code_of_error ha, code_of_error ha]
  | ok c =>
      rw [code_of_ok ha, code_of_ok ha]
      exact congrArg (received address (f.blockFor block)) (h c (f.blockFor block) _ _)

theorem outcomes_of_steady (h : f.node.Steady) (addresses : List String) (block : Option Block)
    (l : Line σ τ) (alone : String → Line σ τ) :
    f.outcomes block addresses l =
      addresses.map fun a => (a, (f.code a block (alone a)).1) := by
  -- each request leaves another line behind, so the claim is for every line
  induction addresses generalizing l with
  | nil => rfl
  | cons a addresses ih => rw [outcomes, List.map_cons, ih, code_eq_of_steady h a block l (alone a)]

theorem side_codes_of_steady (h : f.node.Steady) (addresses : List String) (block : Option Block)
    (l : Line σ τ) (alone : String → Line σ τ) (ok : Bool) :
    (f.codes addresses block l).1.side ok =
      Sequence.entries (fun a => Batch.noted? ok (f.code a block (alone a)).1) addresses := by
  rw [codes, extend_eq_foldl, outcomes_of_steady h addresses block l alone]
  exact Batch.side_foldl_record _ addresses ok

/-- **Batches at a steady node.**  The codes of a batch are those that single requests fetch, each
on a line of its own, and its failures those that single requests meet; both list an address where
it was first asked for.  The node is asked once for every address in a good form, in their order,
and an address has the code or the failure that it has alone, whatever else is asked for. -/
theorem codes_of_steady (h : f.node.Steady) (addresses : List String) (block : Option Block)
    (l : Line σ τ) (alone : String → Line σ τ) :
    (f.codes addresses block l).1.codes = ((Sequence.distinct addresses).filterMap fun a =>
      (f.code a block (alone a)).1.toOption.map fun code => (a, code)) ∧
    (f.codes addresses block l).1.failures = ((Sequence.distinct addresses).filterMap fun a =>
      (FetchError.reason? (f.code a block (alone a)).1).map fun reason => (a, reason)) ∧
    questions (f.codes addresses block l).2.events = questions l.events ++
      (addresses.filterMap fun a =>
        (f.checksum a).toOption.map fun c => .code c (f.blockFor block)) ∧
    ∀ a ∈ addresses,
      (f.codes addresses block l).1.codes.get? a = (f.code a block (alone a)).1.toOption ∧
      (f.codes addresses block l).1.failures.get? a =
        FetchError.reason? (f.code a block (alone a)).1 := by
  have hcodes : (f.codes addresses block l).1.codes = _ :=
    side_codes_of_steady h addresses block l alone true
  have hfailures : (f.codes addresses block l).1.failures = _ :=
    side_codes_of_steady h addresses block l alone false
  refine ⟨hcodes, hfailures, questions_codes addresses block l, fun a ha => ?_⟩
  rw [hcodes, hfailures]
  exact ⟨Sequence.get?_entries ha, Sequence.get?_entries ha⟩

/-! ### A node that counts -/

/-- Has the same code everywhere, but counts the questions and takes longer for each. -/
def counting : Fetcher Nat Nat where
  node :=
    { code := fun _ _ n => (⟨.ok [0x60, 0x80], n⟩, n + 1)
      chain := fun n => (⟨.ok none, n⟩, n + 1) }
  interval := 3
  defaultBlock := .tag "latest"
  checksum := Address.checksumText

/-- An address in a bad form and one in a good form, and both again. -/
def mixedAddresses : List String :=
  ["0xbb", "0xaaaaaaaaaaaaaaaaaaaaaaaaaaaaaaaaaaaaaaaa", "0xbb",
    "0xaaaaaaaaaaaaaaaaaaaaaaaaaaaaaaaaaaaaaaaa"]

/-- Four addresses come to two questions, one code and one failure. -/
theorem codes_of_steady_counting : counting.node.Steady ∧
    (counting.codes mixedAddresses none ⟨1000, 0, 0, []⟩).1.codes =
      [("0xaaaaaaaaaaaaaaaaaaaaaaaaaaaaaaaaaaaaaaaa", "0x6080")] ∧
    (counting.codes mixedAddresses none ⟨1000, 0, 0, []⟩).1.failures =
      [("0xbb", "Unknown format '0xbb', attempted to normalize to '0xbb'")] ∧
    (questions (counting.codes mixedAddresses none ⟨1000, 0, 0, []⟩).2.events).length = 2 := by
  have hsteady : counting.node.Steady := fun _ _ _ _ => rfl
  obtain ⟨hcodes, hfailures, hquestions, -⟩ := codes_of_steady hsteady mixedAddresses none
    ⟨1000, 0, 0, []⟩ fun _ => ⟨0, 0, 5, []⟩
  rw [hcodes, hfailures, hquestions]
  exact ⟨hsteady, by decide +kernel, by decide +kernel, by decide +kernel⟩

end Fetcher

end ContractSurvey
