import ContractSurvey.Text.DigitTable

/-!
# Text — Digit

Digits of every script.  A decimal digit has a value; `isDigit` also takes the digits that have
none, such as superscripts and circled digits.
-/

namespace ContractSurvey.Text

/-- The value of a decimal digit of any script. -/
def decimalValue? (c : Char) : Option Nat :=
  if c.toNat < 128 then
    if c.isDigit then some (c.toNat - 48) else none
  else
    (decimalBlocks.find? fun b => b.1 ≤ c.toNat && c.toNat ≤ b.2).map fun b =>
      (c.toNat - b.1) % 10

/-- A digit of any kind. -/
def isDigit (c : Char) : Bool :=
  if c.toNat < 128 then c.isDigit
  else digitBlocks.any fun b => b.1 ≤ c.toNat && c.toNat ≤ b.2

/-- The number that a row of decimal digits writes; nothing for an empty row. -/
def decimalNumber? (cs : List Char) : Option Nat :=
  if cs.isEmpty then none
  else (cs.mapM decimalValue?).map fun ds => ds.foldl (fun n d => 10 * n + d) 0

end ContractSurvey.Text
