import ContractSurvey.Digest.Keccak
import ContractSurvey.Text.Hex
import ContractSurvey.Text.Quoted

/-!
# Address — Checksum

The form of an address in which a node is asked about it: forty hexadecimal digits whose letter
case is a checksum.  A letter is a capital when the digit in its place of the Keccak digest of the
lower-case digits is at least eight.  An address may be written with or without `0x` and in any
case: `Address.checksum_eq_of_plain_eq` says that only its lower-case digits count.
-/

namespace ContractSurvey

inductive AddressError where
  /-- Something else than hexadecimal digits. -/
  | notHex (text : String)
  /-- Hexadecimal digits, but not forty. -/
  | wrongLength (text digits : String)
  deriving DecidableEq, Repr

def AddressError.message : AddressError → String
  | .notHex s => "when sending a str, it must be a hex string. Got: " ++ Text.quoted s
  | .wrongLength s ds =>
    "Unknown format " ++ Text.quoted s ++ ", attempted to normalize to '0x" ++ ds ++ "'"

namespace Address

/-- The number of digits of an address. -/
def width : Nat := 40

/-- What stands after the mark of a hexadecimal number, if the text has one. -/
def unmarked : List Char → List Char
  | '0' :: 'x' :: rest => rest
  | '0' :: 'X' :: rest => rest
  | cs => cs

/-- The digits of an address in lower case. -/
def plain (text : String) : List Char := (unmarked text.toList).map Char.toLower

/-- The bytes of ASCII characters. -/
def asciiBytes (cs : List Char) : List UInt8 := cs.map fun c => UInt8.ofNat c.toNat

/-- A digit with the letter case that a digit of the digest asks for. -/
def cased (c mark : Char) : Char :=
  if 8 ≤ (Hex.value? mark).getD 0 then c.toUpper else c

/-- The lower-case digits with the letter case of their checksum. -/
def mixedCase (digits : List Char) : List Char :=
  digits.zipWith cased (Hex.ofBytes (Keccak.digest (asciiBytes digits)))

/-- The address in its checksum form. -/
def checksum (text : String) : Except AddressError String :=
  let digits := plain text
  if !digits.all Hex.isDigit then .error (.notHex text)
  else if digits.length ≠ width then .error (.wrongLength text (String.ofList digits))
  else .ok ("0x" ++ String.ofList (mixedCase digits))

/-- The checksum form, or what is said of an address that has none. -/
def checksumText (text : String) : Except String String :=
  (checksum text).mapError (·.message)

theorem checksum_eq_of_plain_eq {s t a : String} (h : plain s = plain t)
    (hs : checksum s = .ok a) : checksum t = .ok a := by
  unfold checksum at hs ⊢
  rw [← h]
  grind

end Address

end ContractSurvey
