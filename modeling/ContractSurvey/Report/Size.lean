import ContractSurvey.Number.Quantity

/-!
# Report — Size

Sizes for a reader: whole bytes below a kilobyte, then kilobytes and megabytes with one place.
-/

namespace ContractSurvey

/-- The bytes in a kilobyte. -/
def kilobyte : Nat := 1024

/-- The bytes in a megabyte. -/
def megabyte : Nat := 1024 * 1024

/-- Whole bytes, counted out. -/
def countText (size : Int) : Except QuantityError String :=
  ((Whole.text size).mapError .digits).map (· ++ "B")

/-- A whole number of bytes. -/
def sizeText (size : Int) : Except QuantityError String :=
  if size < kilobyte then countText size
  else if size < megabyte then
    ((Binary64.quotient size kilobyte).mapError .range).map fun x => x.fixed 1 ++ "KB"
  else ((Binary64.quotient size megabyte).mapError .range).map fun x => x.fixed 1 ++ "MB"

/-- A measured number of bytes, cut to whole bytes below a kilobyte. -/
def measuredText (size : Binary64) : Except QuantityError String :=
  if size < Binary64.ofInt kilobyte then
    match size.truncate? with
    | some n => countText n
    | none => .error (.range .infinite)
  else if size < Binary64.ofInt megabyte then
    .ok ((size / Binary64.ofInt kilobyte).fixed 1 ++ "KB")
  else .ok ((size / Binary64.ofInt megabyte).fixed 1 ++ "MB")

/-- A number of bytes, whole or measured. -/
def bytesText : Quantity → Except QuantityError String
  | .whole n => sizeText n
  | .measured x => measuredText x

end ContractSurvey
