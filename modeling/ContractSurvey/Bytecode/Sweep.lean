import ContractSurvey.Bytecode.Opcode
import ContractSurvey.Bytecode.Text
import ContractSurvey.Sequence.Ledger

/-!
# Bytecode — Sweep

The instructions of a code, met by going through its bytes from the first one and passing over
immediates.  A last push may lack some of its immediate.
-/

namespace ContractSurvey.Bytecode

/-- The opcodes at the instruction starts; `skip` bytes of an immediate are still to pass. -/
def startsFrom : Nat → List UInt8 → List UInt8
  | _, [] => []
  | skip + 1, _ :: rest => startsFrom skip rest
  | 0, op :: rest => op :: startsFrom (Opcode.immediateSize op) rest

/-- The opcodes at the instruction starts of a code. -/
def instructions (code : Option String) : List UInt8 := startsFrom 0 (bytes (text code))

/-- How often each instruction occurs, by name and in the order of first appearance. -/
def opcodeCounts (code : Option String) : Ledger String Nat :=
  tally ((instructions code).map Opcode.name)

/-- The notable opcodes that occur as instructions. -/
def opcodeFlags (code : Option String) : List String :=
  let counts := opcodeCounts code
  Opcode.notable.filter fun name => 0 < (counts.get? name).getD 0

end ContractSurvey.Bytecode
