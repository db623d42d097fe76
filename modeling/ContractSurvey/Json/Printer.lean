import ContractSurvey.Json.Basic
import ContractSurvey.Number.Written
import ContractSurvey.Text.Quoted

/-!
# Json — Printer

JSON text with one item a line, each level two blanks further in.  Only quotes, backslashes and
controls are escaped; every other character stands for itself.  A value has no text if a whole
number in it has none, or if it is nested deeper than there is room for.
-/

namespace ContractSurvey

/-- Why a value has no text. -/
inductive JsonError where
  | digits (e : DigitError)
  /-- Arrays and objects lie in each other more often than there is room for. -/
  | tooDeep
  deriving DecidableEq, Repr

def JsonError.message : JsonError → String
  | .digits e => e.message
  | .tooDeep => "maximum recursion depth exceeded"

namespace Json

/-- A character inside a string. -/
def escapedChar (c : Char) : List Char :=
  if c = '"' then ['\\', '"']
  else if c = '\\' then ['\\', '\\']
  else if c = '\n' then ['\\', 'n']
  else if c = '\r' then ['\\', 'r']
  else if c = '\t' then ['\\', 't']
  else if c.toNat = 8 then ['\\', 'b']
  else if c.toNat = 12 then ['\\', 'f']
  else if c.toNat < 32 then '\\' :: 'u' :: Text.hexDigits 4 c.toNat
  else [c]

/-- A string with its quotes. -/
def stringChars (s : String) : List Char := '"' :: s.toList.flatMap escapedChar ++ ['"']

/-- A new line at some level. -/
def lineBreak (level : Nat) : List Char := '\n' :: List.replicate (2 * level) ' '

mutual

/-- The text of a value that stands at some level, with room for so many levels. -/
def chars (room level : Nat) : Json → Except JsonError (List Char)
  | .null => .ok "null".toList
  | .bool b => .ok (if b then "true" else "false").toList
  | .int n => ((Whole.text n).mapError .digits).map (·.toList)
  | .float x => .ok (x.written .json).toList
  | .text s => .ok (stringChars s)
  | .array vs => if level < room then itemChars room level vs else .error .tooDeep
  | .object fs => if level < room then fieldChars room level fs else .error .tooDeep

/-- Some items between brackets. -/
def itemChars (room level : Nat) : List Json → Except JsonError (List Char)
  | [] => .ok ['[', ']']
  | v :: vs => do
    let first ← chars room (level + 1) v
    let more ← moreItems room level vs
    return '[' :: lineBreak (level + 1) ++ first ++ more

/-- The items after the first, and the closing bracket. -/
def moreItems (room level : Nat) : List Json → Except JsonError (List Char)
  | [] => .ok (lineBreak level ++ [']'])
  | v :: vs => do
    let next ← chars room (level + 1) v
    let more ← moreItems room level vs
    return ',' :: lineBreak (level + 1) ++ next ++ more

/-- Some fields between braces. -/
def fieldChars (room level : Nat) : List (String × Json) → Except JsonError (List Char)
  | [] => .ok ['\x7b', '\x7d']
  | (k, v) :: fs => do
    let first ← chars room (level + 1) v
    let more ← moreFields room level fs
    return '\x7b' :: lineBreak (level + 1) ++ stringChars k ++ ':' :: ' ' :: first ++ more

/-- The fields after the first, and the closing brace. -/
def moreFields (room level : Nat) : List (String × Json) → Except JsonError (List Char)
  | [] => .ok (lineBreak level ++ ['\x7d'])
  | (k, v) :: fs => do
    let next ← chars room (level + 1) v
    let more ← moreFields room level fs
    return ',' :: lineBreak (level + 1) ++ stringChars k ++ ':' :: ' ' :: next ++ more

end

/-- The text of a value, with room for so many levels. -/
def print (room : Nat) (v : Json) : Except JsonError String := (chars room 0 v).map String.ofList

end Json

end ContractSurvey
