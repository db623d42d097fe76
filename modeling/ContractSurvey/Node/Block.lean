import ContractSurvey.Number.Whole
import ContractSurvey.Text.Digit
import ContractSurvey.Text.Quoted

/-!
# Node — Block

The state of the chain that a question is about: a block by its number or by a tag such as
`latest`.  A text of digits only, of any script, is a number; every other text is a tag.
`Block.ofText_of_not_isDigit` says the second half of that.
-/

namespace ContractSurvey

inductive Block where
  | number (n : Int)
  | tag (name : String)
  deriving DecidableEq, Repr

/-- A text of digits that is no number. -/
inductive BlockError where
  /-- A digit such as a superscript has no decimal value. -/
  | notDecimal (text : String)
  /-- More decimal digits at the front than are read. -/
  | tooLong (digits : Nat)
  deriving DecidableEq, Repr

namespace Block

/-- The block in a text. -/
def text : Block → Except DigitError String
  | .number n => Whole.text n
  | .tag name => .ok name

/-- How much of a text that is no number a message shows. -/
def shownWidth : Nat := 200

end Block

def BlockError.message : BlockError → String
  | .notDecimal s =>
    "invalid literal for int() with base 10: " ++
      String.ofList ((Text.quoted s).toList.take Block.shownWidth)
  | .tooLong n =>
    "Exceeds the limit (" ++ toString digitLimit ++
      " digits) for integer string conversion: value has " ++ toString n ++
      " digits; use sys.set_int_max_str_digits() to increase the limit"

namespace Block

/-- The block that a text names. -/
def ofText (s : String) : Except BlockError Block :=
  let cs := s.toList
  if cs.isEmpty || !cs.all Text.isDigit then .ok (.tag s)
  else
    let decimals := (cs.takeWhile fun c => (Text.decimalValue? c).isSome).length
    if digitLimit < decimals then .error (.tooLong decimals)
    else
      match Text.decimalNumber? cs with
      | some n => .ok (.number n)
      | none => .error (.notDecimal s)

theorem ofText_of_not_isDigit {s : String} (h : s.toList.all Text.isDigit = false) :
    ofText s = .ok (.tag s) := by
  simp [ofText, h]

end Block

end ContractSurvey
