import ContractSurvey.Node.Block

/-!
# Node

A node of the chain as those see it who ask it: it answers two kinds of question, each after some
time, or fails.  The same question may be answered differently the next time, so a node has a
state, whose type is its own affair; the type of time is left open too.
-/

namespace ContractSurvey

inductive FaultKind where
  | connection
  | timeout
  | system
  | value
  | runtime
  /-- The node's own complaint. -/
  | provider
  /-- The node's own complaint about a value. -/
  | providerValue
  deriving DecidableEq, Repr

structure NodeFault where
  kind : FaultKind
  message : String
  deriving DecidableEq, Repr

namespace NodeFault

/-- The node was not reached or refused the question. -/
def isTransport (f : NodeFault) : Bool :=
  match f.kind with
  | .connection | .timeout | .system | .provider | .providerValue => true
  | .value | .runtime => false

/-- A value of the question is at fault. -/
def isValue (f : NodeFault) : Bool :=
  match f.kind with
  | .value | .providerValue => true
  | _ => false

end NodeFault

/-- What comes back for a question, and how long it took. -/
structure Reply (τ α : Type) where
  result : Except NodeFault α
  latency : τ

/-- A node with states `σ`, in time `τ`. -/
structure Node (σ τ : Type) where
  /-- The code at an address in its checksum form. -/
  code : String → Block → σ → Reply τ (List UInt8) × σ
  /-- The number of the chain, if it has one. -/
  chain : σ → Reply τ (Option Int) × σ

/-- The name of a chain, which may have no number. -/
def chainName : Option Int → Except DigitError String
  | some 1 => .ok "mainnet"
  | some 17000 => .ok "holesky"
  | some 11155111 => .ok "sepolia"
  | some id => (Whole.text id).map ("chain-" ++ ·)
  | none => .ok "chain-None"

/-- Why a chain has no name: the node did not say which it is, or its number has no text. -/
inductive ChainError where
  | node (fault : NodeFault)
  | digits (e : DigitError)
  deriving DecidableEq, Repr

namespace ChainError

def message : ChainError → String
  | .node f => f.message
  | .digits e => e.message

/-- The node was not reached or refused the question. -/
def isTransport : ChainError → Bool
  | .node f => f.isTransport
  | .digits _ => false

end ChainError

end ContractSurvey
