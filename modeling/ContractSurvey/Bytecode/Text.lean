import ContractSurvey.Digest.Sha256
import ContractSurvey.Text.Blank
import ContractSurvey.Text.Hex
import ContractSurvey.Text.LetterCase

/-!
# Bytecode — Text

Deployed code arrives as text.  Its normal text is what all readings start from: no blanks at the
ends, lower case, one leading `0x` removed.  Text that is no hexadecimal is not refused; the bytes
of a code are those of its longest front part that writes whole bytes.
-/

namespace ContractSurvey.Bytecode

/-- The text after one leading `0x`. -/
def dropMark : List Char → List Char
  | '0' :: 'x' :: rest => rest
  | cs => cs

/-- The normal text of a code. -/
def normalize (cs : List Char) : List Char := dropMark (Text.lowerChars (Text.trim cs))

/-- The normal text of a code that may be absent. -/
def text : Option String → List Char
  | none => []
  | some s => normalize s.toList

/-- No code stands at an address when the normal text is empty. -/
def isEmpty (code : Option String) : Bool := (text code).isEmpty

/-- Half the length of the normal text, whatever characters it holds. -/
def size (code : Option String) : Nat := (text code).length / 2

/-- The longest front part of a text that consists of pairs of lower-case digits. -/
def hexPart (cs : List Char) : List Char :=
  let digits := cs.takeWhile Hex.isLower
  digits.take (digits.length - digits.length % 2)

/-- The bytes of a normal text. -/
def bytes (cs : List Char) : List UInt8 := (Hex.bytes? (hexPart cs)).getD []

/-- The SHA-256 of the bytes, in hexadecimal. -/
def hash (code : Option String) : String :=
  String.ofList (Hex.ofBytes (Sha256.digest (bytes (text code))))

end ContractSurvey.Bytecode
