import ContractSurvey.Number.Binary64
import ContractSurvey.Text.Blank
import ContractSurvey.Text.Digit

/-!
# Number — Reading

Numbers as people type them.  A double is a sign followed by digits with a point somewhere and
perhaps an exponent, or by a name of infinity or of no number.  Where a person types it, blanks at
the two ends do not count, an underscore may stand between two digits, and the digits may be of any
script.
-/

namespace ContractSurvey

namespace Reading

/-- A blank that may surround a number: every blank but the four ASCII separators. -/
def isMargin (c : Char) : Bool := Text.isBlank c && !(28 ≤ c.toNat && c.toNat ≤ 31)

/-- The text between its margins. -/
def withoutMargins (cs : List Char) : List Char :=
  ((cs.dropWhile isMargin).reverse.dropWhile isMargin).reverse

/-- The ASCII digit of the same value; what is no decimal digit stays. -/
def asciiDigit (c : Char) : Char :=
  match Text.decimalValue? c with
  | some d => Char.ofNat (48 + d)
  | none => c

/-- The text without its underscores, if each of them stands between two digits. -/
def withoutUnderscores? : List Char → Option (List Char)
  | [] => some []
  | '_' :: _ => none
  | c :: '_' :: d :: rest =>
    if c.isDigit && d.isDigit then (withoutUnderscores? (d :: rest)).map (c :: ·) else none
  | c :: rest => (withoutUnderscores? rest).map (c :: ·)

/-- The sign at the front, true for a minus, and the text after it. -/
def sign : List Char → Bool × List Char
  | '-' :: rest => (true, rest)
  | '+' :: rest => (false, rest)
  | cs => (false, cs)

/-- The number that a row of ASCII digits writes; nothing for an empty row. -/
def digits? (cs : List Char) : Option Nat :=
  if cs.all Char.isDigit then Text.decimalNumber? cs else none

/-- A row of ASCII digits with an optional sign. -/
def signed? (cs : List Char) : Option Int :=
  let (negative, ds) := sign cs
  (digits? ds).map fun n => if negative then -(n : Int) else n

/-- The power of ten after the letter of an exponent, zero if nothing follows the digits. -/
def exponent? : List Char → Option Int
  | [] => some 0
  | c :: rest => if c = 'e' || c = 'E' then signed? rest else none

/-- Digits with a point somewhere and an optional exponent, as a whole number and a power of
ten. -/
def decimal? (cs : List Char) : Option (Nat × Int) := do
  let whole := cs.takeWhile Char.isDigit
  let (places, rest) :=
    match cs.dropWhile Char.isDigit with
    | '.' :: rest => (rest.takeWhile Char.isDigit, rest.dropWhile Char.isDigit)
    | rest => ([], rest)
  let coefficient ← digits? (whole ++ places)
  let power ← exponent? rest
  return (coefficient, power - places.length)

/-- A name in letters of either case. -/
def isNamed (names : List String) (cs : List Char) : Bool :=
  names.contains (String.ofList (cs.map Char.toLower))

/-- The double that a text of ASCII digits writes. -/
def double? (cs : List Char) : Option Binary64 :=
  let (negative, cs) := sign cs
  if isNamed ["nan"] cs then some .nan
  else if isNamed ["inf", "infinity"] cs then some (.infinite negative)
  else (decimal? cs).map fun (coefficient, power) => .ofDecimal negative coefficient power

end Reading

/-- The double that a text writes. -/
def Binary64.ofText? (s : String) : Option Binary64 :=
  (Reading.withoutUnderscores? (Reading.withoutMargins (s.toList.map Reading.asciiDigit))).bind
    Reading.double?

end ContractSurvey
