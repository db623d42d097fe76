import ContractSurvey.Json.Basic
import ContractSurvey.Text.Hex

/-!
# Json — Reader

Reads JSON text.  A number with a point or an exponent is a double, any other a whole number.  Each
reader takes what it needs from the front of the text and gives back the rest; the nesting that
`value` may follow is bounded by the length of the text.
-/

namespace ContractSurvey.Json

/-- The text after its leading blanks. -/
def skipBlanks (cs : List Char) : List Char :=
  cs.dropWhile fun c => c = ' ' || c = '\n' || c = '\r' || c = '\t'

/-! ### Strings -/

/-- The unit that four hexadecimal digits write. -/
def unit? (a b c d : Char) : Option Nat := do
  let a ← Hex.value? a
  let b ← Hex.value? b
  let c ← Hex.value? c
  let d ← Hex.value? d
  return 4096 * a + 256 * b + 16 * c + d

/-- The character that a letter after a backslash names. -/
def unescape? : Char → Option Char
  | '"' => some '"'
  | '\\' => some '\\'
  | '/' => some '/'
  | 'b' => some '\x08'
  | 'f' => some '\x0c'
  | 'n' => some '\n'
  | 'r' => some '\r'
  | 't' => some '\t'
  | _ => none

/-- The units up to the closing quote. -/
def stringUnits : List Char → Option (List Nat × List Char)
  | [] => none
  | '"' :: rest => some ([], rest)
  | '\\' :: 'u' :: a :: b :: c :: d :: rest => do
    let n ← unit? a b c d
    let (ns, rest) ← stringUnits rest
    return (n :: ns, rest)
  | '\\' :: e :: rest => do
    let c ← unescape? e
    let (ns, rest) ← stringUnits rest
    return (c.toNat :: ns, rest)
  | c :: rest =>
    if c = '\\' || c.toNat < 32 then none
    else do
      let (ns, rest) ← stringUnits rest
      return (c.toNat :: ns, rest)

/-- The characters of a row of units, two surrogates making one character. -/
def joinUnits : List Nat → List Char
  | h :: l :: rest =>
    if 0xd800 ≤ h ∧ h < 0xdc00 ∧ 0xdc00 ≤ l ∧ l < 0xe000 then
      Char.ofNat (0x10000 + (h - 0xd800) * 0x400 + (l - 0xdc00)) :: joinUnits rest
    else Char.ofNat h :: joinUnits (l :: rest)
  | [n] => [Char.ofNat n]
  | [] => []

/-- The string whose opening quote has been read. -/
def string? (cs : List Char) : Option (String × List Char) :=
  (stringUnits cs).map fun (ns, rest) => (String.ofList (joinUnits ns), rest)

/-! ### Numbers -/

/-- The digits at the front, at least one. -/
def digits? (cs : List Char) : Option (List Char × List Char) :=
  let ds := cs.takeWhile Char.isDigit
  if ds.isEmpty then none else some (ds, cs.dropWhile Char.isDigit)

/-- The number that decimal digits write. -/
def ofDigits (ds : List Char) : Nat := Nat.ofDigitChars 10 ds 0

/-- The places after a point, if a point follows. -/
def fraction? : List Char → Option (Option (List Char) × List Char)
  | '.' :: rest => (digits? rest).map fun (ds, rest) => (some ds, rest)
  | cs => some (none, cs)

/-- A signed whole number after the exponent's letter, if the letter follows. -/
def exponent? : List Char → Option (Option Int × List Char)
  | c :: rest =>
    if c = 'e' || c = 'E' then
      match rest with
      | '-' :: rest => (digits? rest).map fun (ds, rest) => (some (-(ofDigits ds : Int)), rest)
      | '+' :: rest => (digits? rest).map fun (ds, rest) => (some (ofDigits ds : Int), rest)
      | rest => (digits? rest).map fun (ds, rest) => (some (ofDigits ds : Int), rest)
    else some (none, c :: rest)
  | [] => some (none, [])

/-- A number without its sign. -/
def unsigned? (negative : Bool) (cs : List Char) : Option (Json × List Char) := do
  let (whole, rest) ← digits? cs
  if whole.length > 1 && whole.head? = some '0' then none
  let (places, rest) ← fraction? rest
  let (power, rest) ← exponent? rest
  match places, power with
  | none, none =>
    let n : Int := ofDigits whole
    return (.int (if negative then -n else n), rest)
  | _, _ =>
    let places := places.getD []
    let power := power.getD 0 - places.length
    return (.float (Binary64.ofDecimal negative (ofDigits (whole ++ places)) power), rest)

/-- A number. -/
def number? : List Char → Option (Json × List Char)
  | '-' :: rest => unsigned? true rest
  | cs => unsigned? false cs

/-! ### Values -/

/-- The rest of a text that starts with this word. -/
def after? (word : String) (cs : List Char) : Option (List Char) :=
  if word.toList.isPrefixOf cs then some (cs.drop word.length) else none

mutual

/-- A value, with blanks before it, nested less deeply than the bound. -/
def value? : Nat → List Char → Option (Json × List Char)
  | 0, _ => none
  | bound + 1, cs =>
    match skipBlanks cs with
    | '"' :: rest => (string? rest).map fun (s, rest) => (.text s, rest)
    | '[' :: rest =>
      match skipBlanks rest with
      | ']' :: rest => some (.array [], rest)
      | rest => (items? bound rest).map fun (vs, rest) => (.array vs, rest)
    | '\x7b' :: rest =>
      match skipBlanks rest with
      | '\x7d' :: rest => some (.object [], rest)
      | rest => (fields? bound rest).map fun (fs, rest) => (.object fs, rest)
    | cs =>
      ((after? "null" cs).map (Json.null, ·)) <|> ((after? "true" cs).map (Json.bool true, ·)) <|>
        ((after? "false" cs).map (Json.bool false, ·)) <|> number? cs

/-- The items up to the closing bracket, at least one. -/
def items? : Nat → List Char → Option (List Json × List Char)
  | 0, _ => none
  | bound + 1, cs =>
    (value? bound cs).bind fun (v, rest) =>
      match skipBlanks rest with
      | ']' :: rest => some ([v], rest)
      | ',' :: rest => (items? bound rest).map fun (vs, rest) => (v :: vs, rest)
      | _ => none

/-- The fields up to the closing brace, at least one. -/
def fields? : Nat → List Char → Option (List (String × Json) × List Char)
  | 0, _ => none
  | bound + 1, cs =>
    match skipBlanks cs with
    | '"' :: rest =>
      (string? rest).bind fun (k, rest) =>
        match skipBlanks rest with
        | ':' :: rest =>
          (value? bound rest).bind fun (v, rest) =>
            match skipBlanks rest with
            | '\x7d' :: rest => some ([(k, v)], rest)
            | ',' :: rest => (fields? bound rest).map fun (fs, rest) => ((k, v) :: fs, rest)
            | _ => none
        | _ => none
    | _ => none

end

/-- The value that a whole text writes. -/
def parse? (s : String) : Option Json :=
  let cs := s.toList
  match value? (2 * cs.length + 1) cs with
  | some (v, rest) => if (skipBlanks rest).isEmpty then some v else none
  | none => none

end ContractSurvey.Json
