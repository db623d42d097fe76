import ContractSurvey.Number.Decimal
import ContractSurvey.Number.Whole

/-!
# Number — Written

How numbers are written: doubles by the fewest digits that read back, doubles with a fixed number
of places, and whole numbers with their thousands set apart.
-/

namespace ContractSurvey

/-- The choices of a decimal layout. -/
structure Layout where
  /-- The powers of ten of a first digit for which no exponent is written. -/
  leastPower : Int
  greatestPower : Int
  notANumber : String
  infinity : String

namespace Layout

/-- No exponent from a ten-thousandth up to below ten to the sixteenth. -/
def plain : Layout := ⟨-4, 15, "nan", "inf"⟩

/-- As `plain`, with the names that JSON readers know. -/
def json : Layout := ⟨-4, 15, "NaN", "Infinity"⟩

/-- The digits of a decimal with a point, or with an exponent of at least two digits. -/
def digits (layout : Layout) (d : Decimal) : List Char :=
  let all := Nat.toDigits 10 d.coefficient
  let power : Int := all.length + d.exponent - 1
  let kept := (all.reverse.dropWhile (· == '0')).reverse
  let ds := if kept.isEmpty then ['0'] else kept
  if layout.leastPower ≤ power ∧ power ≤ layout.greatestPower then
    if power < 0 then
      '0' :: '.' :: List.replicate (-power - 1).toNat '0' ++ ds
    else
      let whole := power.toNat + 1
      let before := ds.take whole ++ List.replicate (whole - ds.length) '0'
      let after := ds.drop whole
      before ++ '.' :: (if after.isEmpty then ['0'] else after)
  else
    let mantissa :=
      match ds with
      | [d] => [d]
      | d :: rest => d :: '.' :: rest
      | [] => []
    let sign := if power < 0 then '-' else '+'
    let exponent := Nat.toDigits 10 power.natAbs
    mantissa ++ 'e' :: sign :: List.replicate (2 - exponent.length) '0' ++ exponent

end Layout

namespace Binary64

/-- The minus sign of a negative number. -/
def signText (negative : Bool) : String := if negative then "-" else ""

/-- The fewest digits that read back, in the given layout. -/
def written (layout : Layout) (x : Binary64) : String :=
  match x with
  | .nan => layout.notANumber
  | .infinite s => signText s ++ layout.infinity
  | .finite s m e h =>
    let d := if m = 0 then ⟨0, 0⟩ else shortest (.finite false m e h) (m * Nat.pow 2 e)
    signText s ++ String.ofList (layout.digits d)

/-- The fewest digits that read back. -/
def text (x : Binary64) : String := x.written .plain

/-- The exact value rounded to a fixed number of places, at least one. -/
def fixed (places : Nat) (x : Binary64) : String :=
  match x with
  | .nan => Layout.plain.notANumber
  | .infinite s => signText s ++ Layout.plain.infinity
  | .finite s m e _ =>
    let k := roundDiv (m * Nat.pow 2 e * Nat.pow 10 places) one
    let fraction := Nat.toDigits 10 (k % Nat.pow 10 places)
    signText s ++ toString (k / Nat.pow 10 places) ++ "." ++
      String.ofList (List.replicate (places - fraction.length) '0' ++ fraction)

end Binary64

/-- Groups of three digits from the right, with a comma between them. -/
def groupThousands (reversed : List Char) : List Char :=
  match reversed with
  | a :: b :: c :: d :: rest => a :: b :: c :: ',' :: groupThousands (d :: rest)
  | short => short

/-- A whole number with its thousands set apart by commas. -/
def grouped (n : Int) : Except DigitError String :=
  Whole.ifShort n
    (Binary64.signText (n < 0) ++
      String.ofList (groupThousands (Nat.toDigits 10 n.natAbs).reverse).reverse)

end ContractSurvey
