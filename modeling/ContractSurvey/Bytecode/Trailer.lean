import ContractSurvey.Bytecode.Scan
import ContractSurvey.Bytecode.Text

/-!
# Bytecode — Trailer

The map that a compiler appends to the code: a CBOR entry `ipfs` with 34 bytes of hash.
-/

namespace ContractSurvey

/-- What the trailer says; a trailer may come without a hash. -/
structure Trailer where
  ipfsHash : Option String
  deriving DecidableEq, Repr

namespace Bytecode

/-- The entry's head. -/
def ipfsMark : String := "a264697066735822"

/-- The head and the 34 bytes of hash. -/
def trailerShape : Shape := Shape.word ipfsMark ++ List.replicate 68 hexSet

/-- The first trailer in a code. -/
def trailer? (code : Option String) : Option Trailer :=
  (trailerShape.first? (text code)).map fun piece =>
    ⟨some (String.ofList (piece.drop ipfsMark.length))⟩

end Bytecode

end ContractSurvey
