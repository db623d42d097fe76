import ContractSurvey.Error
import ContractSurvey.Node.Basic
import ContractSurvey.Number.Binary64
import ContractSurvey.Sequence.Ledger

/-!
# Node — Fetcher

Asks a node for code, one question at a time and not too often: between two questions lies at least
an interval, and whatever is missing from it is slept through.  What the checksum form of an address
is, is the fetcher's affair; an address that has none is refused before anything is slept or asked.

`Line.pause_clock` says that a question is asked at the time noted as the last question's, and
`Fetcher.extend_append` that a batch may be cut in two anywhere.
-/

namespace ContractSurvey

inductive Question where
  | code (address : String) (block : Block)
  | chain
  deriving DecidableEq, Repr

/-- What a fetcher does that can be seen from outside. -/
inductive Event (τ : Type) where
  | slept (duration : τ)
  | asked (time : τ) (question : Question)
  deriving DecidableEq, Repr

/-- A line to a node: the time, when the last question was asked, the node's state and all that
has happened so far. -/
structure Line (σ τ : Type) where
  clock : τ
  lastQuestion : τ
  node : σ
  events : List (Event τ) := []

/-- Why code was not fetched. -/
inductive FetchError where
  /-- The address has no checksum form, and what is said of that. -/
  | address (message : String)
  | noCode (address block : String)
  /-- There is no code, and no text for the number of the block that has none. -/
  | digits (e : DigitError)
  | node (fault : NodeFault)
  deriving DecidableEq, Repr

namespace FetchError

def message : FetchError → String
  | .address m => m
  | .noCode a b => (SurveyError.noCode a b).message
  | .digits e => e.message
  | .node f => f.message

/-- Why there is nothing to fetch at an address without code. -/
def ofMissing (address : String) (block : Block) : FetchError :=
  match block.text with
  | .ok shown => .noCode address shown
  | .error e => .digits e

end FetchError

/-- Codes and failures of a batch by address, as the addresses were written. -/
structure Batch where
  codes : Ledger String String := []
  failures : Ledger String String := []
  deriving DecidableEq

/-- Enters what became of an address. -/
def Batch.record (b : Batch) (address : String) : Except FetchError String → Batch
  | .ok code => { b with codes := b.codes.put address code }
  | .error e => { b with failures := b.failures.put address e.message }

/-! ### One question -/

namespace Line

variable {σ τ : Type} [Add τ] [Sub τ] [LT τ] [DecidableLT τ]

/-- Lets time pass. -/
def advance (d : τ) (l : Line σ τ) : Line σ τ := { l with clock := l.clock + d }

/-- Sleeps through what is missing from the interval since the last question. -/
def pause (interval : τ) (l : Line σ τ) : Line σ τ :=
  let elapsed := l.clock - l.lastQuestion
  if elapsed < interval then
    let missing := interval - elapsed
    { l.advance missing with
      lastQuestion := l.clock + missing
      events := l.events ++ [.slept missing] }
  else { l with lastQuestion := l.clock }

/-- Asks a question, which the node answers in its own time. -/
def ask {α : Type} (interval : τ) (q : Question) (answer : σ → Reply τ α × σ) (l : Line σ τ) :
    Except NodeFault α × Line σ τ :=
  let l := l.pause interval
  let (reply, node) := answer l.node
  (reply.result,
    { l with
      clock := l.clock + reply.latency
      node
      events := l.events ++ [.asked l.clock q] })

theorem pause_clock (interval : τ) (l : Line σ τ) :
    (l.pause interval).lastQuestion = (l.pause interval).clock := by
  unfold pause advance
  grind

end Line

/-- A node with the habits of asking it. -/
structure Fetcher (σ τ : Type) where
  node : Node σ τ
  /-- The least time between two questions. -/
  interval : τ
  /-- The block that is asked about if none is named. -/
  defaultBlock : Block
  /-- The form of an address in which the node is asked about it, or what is said of one that has
  none. -/
  checksum : String → Except String String

/-! ### Codes -/

namespace Fetcher

variable {σ τ : Type} [Add τ] [Sub τ] [LT τ] [DecidableLT τ]

/-- The block to ask about: block zero and the empty tag count as none. -/
def blockFor (f : Fetcher σ τ) : Option Block → Block
  | none | some (.number 0) | some (.tag "") => f.defaultBlock
  | some b => b

/-- The code at an address, as hexadecimal text. -/
def code (f : Fetcher σ τ) (address : String) (block : Option Block) (l : Line σ τ) :
    Except FetchError String × Line σ τ :=
  let b := f.blockFor block
  match f.checksum address with
  | .error e => (.error (.address e), l)
  | .ok a =>
    match l.ask f.interval (.code a b) (f.node.code a b) with
    | (.error e, l) => (.error (.node e), l)
    | (.ok bytes, l) =>
      if bytes.isEmpty then (.error (.ofMissing address b), l)
      else (.ok ("0x" ++ String.ofList (Hex.ofBytes bytes)), l)

/-- Fetches the codes at some addresses one after the other and adds them to a batch. -/
def extend (f : Fetcher σ τ) (block : Option Block) :
    List String → Batch → Line σ τ → Batch × Line σ τ
  | [], b, l => (b, l)
  | a :: rest, b, l =>
    let (r, l) := f.code a block l
    f.extend block rest (b.record a r) l

/-- The codes at some addresses; an address that fails stops nothing. -/
def codes (f : Fetcher σ τ) (addresses : List String) (block : Option Block) (l : Line σ τ) :
    Batch × Line σ τ :=
  f.extend block addresses {} l

/-- The name of the node's chain. -/
def networkName (f : Fetcher σ τ) (l : Line σ τ) : Except ChainError String × Line σ τ :=
  let (id, l) := l.ask f.interval .chain f.node.chain
  ((id.mapError .node).bind fun id => (chainName id).mapError .digits, l)

theorem extend_append (f : Fetcher σ τ) (block : Option Block) (as bs : List String) (b : Batch)
    (l : Line σ τ) :
    f.extend block (as ++ bs) b l =
      f.extend block bs (f.extend block as b l).1 (f.extend block as b l).2 := by
  induction as generalizing b l with
  | nil => rfl
  | cons a as ih => exact ih _ _

end Fetcher

/-- The milliseconds between two states of a line. -/
def Line.milliseconds {σ : Type} (before after : Line σ Binary64) : Binary64 :=
  (after.clock - before.clock) * 1000

end ContractSurvey
