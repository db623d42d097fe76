import ContractSurvey.Json.Reader

/-!
# Proofs — Json — Grammar

The texts of JSON, told apart from any reader or printer.  `Spells v cs` says that the characters
`cs` are a text of the value `v`; every value has many, since blanks may stand between the parts, a
character of a string may be escaped or not, and a double may be written with any digits that round
to it.  `IsDocument v s` allows blanks around the whole.

A number with a point or an exponent is the double nearest to the decimal it writes, any other is
the whole number (`Numeral.value`).
-/

namespace ContractSurvey.Json

/-! ### Blanks -/

/-- A blank between the parts of a text. -/
def isBlank (c : Char) : Bool := c = ' ' || c = '\n' || c = '\r' || c = '\t'

def Blanks (cs : List Char) : Prop := ∀ c ∈ cs, isBlank c = true

/-! ### Numbers -/

/-- At least one decimal digit. -/
def IsDigits (cs : List Char) : Prop := cs ≠ [] ∧ ∀ c ∈ cs, c.isDigit = true

/-- The sign that may stand before the digits of an exponent. -/
inductive PowerSign where
  | none
  | plus
  | minus
  deriving DecidableEq, Repr

def PowerSign.chars : PowerSign → List Char
  | .none => []
  | .plus => ['+']
  | .minus => ['-']

/-- An exponent. -/
structure Power where
  letter : Char
  sign : PowerSign
  digits : List Char
  isLetter : letter = 'e' ∨ letter = 'E'
  isDigits : IsDigits digits

namespace Power

def chars (p : Power) : List Char := p.letter :: p.sign.chars ++ p.digits

def value (p : Power) : Int :=
  match p.sign with
  | .minus => -(ofDigits p.digits : Int)
  | .none | .plus => ofDigits p.digits

end Power

/-- A number as it is written.  No zero stands before other digits of the whole part. -/
structure Numeral where
  negative : Bool
  whole : List Char
  places : Option (List Char)
  power : Option Power
  isWhole : IsDigits whole
  noLeadingZero : whole.length = 1 ∨ whole.head? ≠ some '0'
  isPlaces : ∀ ds ∈ places, IsDigits ds

namespace Numeral

def signChars (negative : Bool) : List Char := if negative then ['-'] else []

def placesChars : Option (List Char) → List Char
  | none => []
  | some ds => '.' :: ds

def powerChars : Option Power → List Char
  | none => []
  | some p => p.chars

def chars (n : Numeral) : List Char :=
  signChars n.negative ++ n.whole ++ placesChars n.places ++ powerChars n.power

/-- The whole number or the double that is written. -/
def value (n : Numeral) : Json :=
  match n.places, n.power with
  | none, none => .int (if n.negative then -(ofDigits n.whole : Int) else ofDigits n.whole)
  | places, power =>
    .float (.ofDecimal n.negative (ofDigits (n.whole ++ places.getD []))
      ((power.map (·.value)).getD 0 - (places.getD []).length))

end Numeral

/-! ### Strings -/

/-- The characters of a string and their text between the quotes.  A character beyond four
hexadecimal digits may be escaped as the pair of surrogates that stands for it. -/
inductive SpellsText : List Char → List Char → Prop where
  | nil : SpellsText [] []
  | plain {c : Char} {s cs : List Char} (hquote : c ≠ '"') (hslash : c ≠ '\\')
      (hcontrol : 32 ≤ c.toNat) (h : SpellsText s cs) : SpellsText (c :: s) (c :: cs)
  | escaped {e c : Char} {s cs : List Char} (he : unescape? e = some c) (h : SpellsText s cs) :
      SpellsText (c :: s) ('\\' :: e :: cs)
  | unit {a b c d : Char} {n : Nat} {s cs : List Char} (hn : unit? a b c d = some n)
      (hchar : n < 0xd800 ∨ 0xe000 ≤ n) (h : SpellsText s cs) :
      SpellsText (.ofNat n :: s) ('\\' :: 'u' :: a :: b :: c :: d :: cs)
  | pair {a b c d a' b' c' d' : Char} {high low : Nat} {s cs : List Char}
      (hhigh : unit? a b c d = some high) (hlow : unit? a' b' c' d' = some low)
      (hhighest : 0xd800 ≤ high ∧ high < 0xdc00) (hlowest : 0xdc00 ≤ low ∧ low < 0xe000)
      (h : SpellsText s cs) :
      SpellsText (.ofNat (0x10000 + (high - 0xd800) * 0x400 + (low - 0xdc00)) :: s)
        ('\\' :: 'u' :: a :: b :: c :: d :: '\\' :: 'u' :: a' :: b' :: c' :: d' :: cs)

/-! ### Values -/

mutual

/-- A value and a text of it. -/
inductive Spells : Json → List Char → Prop where
  | null : Spells .null ['n', 'u', 'l', 'l']
  | truth : Spells (.bool true) ['t', 'r', 'u', 'e']
  | falsity : Spells (.bool false) ['f', 'a', 'l', 's', 'e']
  | number (n : Numeral) : Spells n.value n.chars
  | text {s : String} {cs : List Char} (h : SpellsText s.toList cs) :
      Spells (.text s) ('"' :: cs ++ ['"'])
  | noItems {a : List Char} (ha : Blanks a) : Spells (.array []) ('[' :: a ++ [']'])
  | items {a cs ds : List Char} {v : Json} {vs : List Json} (ha : Blanks a) (hv : Spells v cs)
      (hvs : SpellsItems vs ds) : Spells (.array (v :: vs)) ('[' :: a ++ cs ++ ds)
  | noFields {a : List Char} (ha : Blanks a) : Spells (.object []) ('\x7b' :: a ++ ['\x7d'])
  | fields {a cs ds : List Char} {f : String × Json} {fs : List (String × Json)} (ha : Blanks a)
      (hf : SpellsField f cs) (hfs : SpellsFields fs ds) :
      Spells (.object (f :: fs)) ('\x7b' :: a ++ cs ++ ds)

/-- The items behind one, each after a comma, and the closing bracket. -/
inductive SpellsItems : List Json → List Char → Prop where
  | close {b : List Char} (hb : Blanks b) : SpellsItems [] (b ++ [']'])
  | next {b a cs ds : List Char} {v : Json} {vs : List Json} (hb : Blanks b) (ha : Blanks a)
      (hv : Spells v cs) (hvs : SpellsItems vs ds) :
      SpellsItems (v :: vs) (b ++ ',' :: a ++ cs ++ ds)

/-- A name, a colon and a value. -/
inductive SpellsField : String × Json → List Char → Prop where
  | mk {name : String} {ks b a cs : List Char} {v : Json} (hname : SpellsText name.toList ks)
      (hb : Blanks b) (ha : Blanks a) (hv : Spells v cs) :
      SpellsField (name, v) ('"' :: ks ++ '"' :: b ++ ':' :: a ++ cs)

/-- The fields behind one, each after a comma, and the closing brace. -/
inductive SpellsFields : List (String × Json) → List Char → Prop where
  | close {b : List Char} (hb : Blanks b) : SpellsFields [] (b ++ ['\x7d'])
  | next {b a cs ds : List Char} {f : String × Json} {fs : List (String × Json)} (hb : Blanks b)
      (ha : Blanks a) (hf : SpellsField f cs) (hfs : SpellsFields fs ds) :
      SpellsFields (f :: fs) (b ++ ',' :: a ++ cs ++ ds)

end

/-- A valid text of a value. -/
def IsDocument (v : Json) (s : String) : Prop :=
  ∃ a cs b, Blanks a ∧ Spells v cs ∧ Blanks b ∧ s.toList = a ++ cs ++ b

end ContractSurvey.Json
