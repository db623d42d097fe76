/-!
# Text — Hex

Hexadecimal digits and the bytes they write.  `bytes?` takes two digits of either case for a byte
and refuses every other text; `ofBytes` writes lower case.  The main statement is
`bytes?_ofBytes`: what is written reads back.
-/

namespace ContractSurvey.Hex

/-- A lower-case digit, the only kind that scans look for. -/
def isLower (c : Char) : Bool :=
  ('0' ≤ c && c ≤ '9') || ('a' ≤ c && c ≤ 'f')

/-- The value of a digit of either case. -/
def value? (c : Char) : Option Nat :=
  if '0' ≤ c && c ≤ '9' then some (c.toNat - '0'.toNat)
  else if 'a' ≤ c && c ≤ 'f' then some (c.toNat - 'a'.toNat + 10)
  else if 'A' ≤ c && c ≤ 'F' then some (c.toNat - 'A'.toNat + 10)
  else none

/-- A digit of either case. -/
def isDigit (c : Char) : Bool := (value? c).isSome

/-- The lower-case digit of a value below sixteen. -/
def digit (n : Nat) : Char :=
  if n < 10 then Char.ofNat (48 + n) else Char.ofNat (87 + n)

/-- The two digits of a byte. -/
def ofByte (b : UInt8) : List Char := [digit (b.toNat / 16), digit (b.toNat % 16)]

/-- The digits of some bytes, in order. -/
def ofBytes (bs : List UInt8) : List Char := bs.flatMap ofByte

/-- The bytes that the digits write: an even number of digits and nothing else. -/
def bytes? : List Char → Option (List UInt8)
  | [] => some []
  | [_] => none
  | a :: b :: rest => do
    let hi ← value? a
    let lo ← value? b
    let bs ← bytes? rest
    return UInt8.ofNat (16 * hi + lo) :: bs

theorem value?_digit : ∀ {n : Nat}, n < 16 → value? (digit n) = some n := by decide

theorem bytes?_ofBytes (bs : List UInt8) : bytes? (ofBytes bs) = some bs := by
  induction bs with
  | nil => rfl
  | cons b bs ih =>
    have hb : b.toNat < 256 := b.toNat_lt
    have byte : UInt8.ofNat (16 * (b.toNat / 16) + b.toNat % 16) = b := by
      rw [Nat.div_add_mod, UInt8.ofNat_toNat]
    change bytes? (digit (b.toNat / 16) :: digit (b.toNat % 16) :: ofBytes bs) = some (b :: bs)
    rw [bytes?, value?_digit (by omega), value?_digit (by omega), ih]
    exact congrArg (fun x => some (x :: bs)) byte

end ContractSurvey.Hex
