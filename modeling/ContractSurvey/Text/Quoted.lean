import ContractSurvey.Text.Hex
import ContractSurvey.Text.UnprintableTable

/-!
# Text — Quoted

A text between quotes, as error messages show it.  Single quotes are used unless the text holds
some and no double quote; the quote in use, the backslash and whatever does not print are escaped.
-/

namespace ContractSurvey.Text

/-- A character that shows as itself. -/
def isPrintable (c : Char) : Bool :=
  if c.toNat < 128 then 32 ≤ c.toNat && c.toNat < 127
  else !(unprintableBlocks.any fun b => b.1 ≤ c.toNat && c.toNat ≤ b.2)

/-- The last `width` hexadecimal digits of a number. -/
def hexDigits (width n : Nat) : List Char :=
  (List.range width).reverse.map fun i => Hex.digit (n / Nat.pow 16 i % 16)

/-- A character as it stands between the quotes `quote`. -/
def quotedChar (quote c : Char) : List Char :=
  if c = quote || c = '\\' then ['\\', c]
  else if c = '\n' then ['\\', 'n']
  else if c = '\r' then ['\\', 'r']
  else if c = '\t' then ['\\', 't']
  else if isPrintable c then [c]
  else if c.toNat < 0x100 then '\\' :: 'x' :: hexDigits 2 c.toNat
  else if c.toNat < 0x10000 then '\\' :: 'u' :: hexDigits 4 c.toNat
  else '\\' :: 'U' :: hexDigits 8 c.toNat

/-- The text between quotes. -/
def quoted (s : String) : String :=
  let cs := s.toList
  let quote := if cs.contains '\'' && !cs.contains '"' then '"' else '\''
  String.ofList (quote :: cs.flatMap (quotedChar quote) ++ [quote])

end ContractSurvey.Text
