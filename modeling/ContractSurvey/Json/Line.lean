import ContractSurvey.Json.Printer

/-!
# Json — Line

JSON text on one line and in ASCII, for records one a line.  A character beyond ASCII is written as
the one or two 16-bit units that stand for it, and a double that is no number as a string.
-/

namespace ContractSurvey.Json

/-- A 16-bit unit, escaped. -/
def unitChars (n : Nat) : List Char := '\\' :: 'u' :: Text.hexDigits 4 n

/-- A character inside a string, in ASCII. -/
def asciiChar (c : Char) : List Char :=
  if c.toNat < 128 then escapedChar c
  else if c.toNat < 0x10000 then unitChars c.toNat
  else
    let n := c.toNat - 0x10000
    unitChars (0xd800 + n / 0x400) ++ unitChars (0xdc00 + n % 0x400)

/-- A string with its quotes, in ASCII. -/
def asciiChars (s : String) : List Char := '"' :: s.toList.flatMap asciiChar ++ ['"']

mutual

/-- The text of a value on one line. -/
def lineChars : Json → List Char
  | .null => "null".toList
  | .bool b => (if b then "true" else "false").toList
  | .int n => (toString n).toList
  | .float x => if x.isFinite then x.text.toList else asciiChars x.text
  | .text s => asciiChars s
  | .array [] => ['[', ']']
  | .array (v :: vs) => '[' :: lineChars v ++ laterItems vs
  | .object [] => ['\x7b', '\x7d']
  | .object ((k, v) :: fs) => '\x7b' :: asciiChars k ++ ':' :: ' ' :: lineChars v ++ laterFields fs

/-- The items after the first, and the closing bracket. -/
def laterItems : List Json → List Char
  | [] => [']']
  | v :: vs => ',' :: ' ' :: lineChars v ++ laterItems vs

/-- The fields after the first, and the closing brace. -/
def laterFields : List (String × Json) → List Char
  | [] => ['\x7d']
  | (k, v) :: fs =>
    ',' :: ' ' :: asciiChars k ++ ':' :: ' ' :: lineChars v ++ laterFields fs

end

/-- A value on one line. -/
def line (v : Json) : String := String.ofList (lineChars v)

end ContractSurvey.Json
