import ContractSurvey.Bytecode.Scan
import ContractSurvey.Bytecode.Text
import ContractSurvey.Sequence.Distinct

/-!
# Bytecode — Selectors

Candidates for function selectors.  Three shapes of text end in the eight digits of a selector: a
`PUSH4`, a comparison in a dispatcher, and an entry of a jump table.  Each scan is free to report
what is no selector; the dictionary of signatures sorts that out later.
-/

namespace ContractSurvey

/-- A selector as text, `0x` and eight lower-case digits when a scan found it. -/
abbrev Selector := String

namespace Bytecode

/-- Eight hexadecimal digits. -/
def eightDigits : Shape := List.replicate 8 hexSet

/-- `PUSH4` and its immediate. -/
def push4Shape : Shape := Shape.word "63" ++ eightDigits

/-- `DUP1 PUSH1 4 CALLDATALOAD`, one of `LT`, `GT`, `EQ`, and the constant compared. -/
def dispatcherShape : Shape := Shape.word "806004351" ++ ["014".toList] ++ eightDigits

/-- `JUMPDEST DUP1 PUSH1 4 CALLDATALOAD`, one of four `DUP`s, and the constant. -/
def jumpTableShape : Shape := Shape.word "5b806004358" ++ ["0123".toList] ++ eightDigits

/-- The selector that a fitting piece ends in. -/
def selectorOf (piece : List Char) : Selector :=
  String.ofList ('0' :: 'x' :: piece.drop (piece.length - 8))

/-- The selectors that one shape finds in a code. -/
def scan (shape : Shape) (code : List Char) : List Selector :=
  Sequence.distinct ((shape.found (normalize code)).map selectorOf)

def scanPush4 (code : List Char) : List Selector := scan push4Shape code

def scanDispatcher (code : List Char) : List Selector := scan dispatcherShape code

def scanJumpTable (code : List Char) : List Selector := scan jumpTableShape code

/-- The selectors that any scan finds.  The scans read the normal text, and normalise it again. -/
def selectors (code : Option String) : List Selector :=
  let cs := text code
  if cs.isEmpty then []
  else Sequence.distinct (scanPush4 cs ++ scanDispatcher cs ++ scanJumpTable cs)

end Bytecode

end ContractSurvey
