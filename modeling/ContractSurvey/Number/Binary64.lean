import ContractSurvey.Number.Rounding

/-!
# Number — Binary64

IEEE 754 double precision with exact semantics.  Every finite double is a whole number of
`2 ^ -1074`, so a value is kept as a sign, a mantissa and a power of two counted from there, and
all arithmetic is arithmetic of natural numbers followed by one rounding (`Binary64.nearest`).
The mantissa is canonical by construction: two finite doubles are equal exactly when they have the
same bits.  There is a single NaN.

Comparison follows the standard: nothing is below, above or equal to NaN, and the two zeros are
level.
-/

namespace ContractSurvey

/-- The mantissa fills its 53 bits unless the exponent is the least one. -/
def Binary64.Canonical (mantissa exponent : Nat) : Prop :=
  mantissa < Nat.pow 2 53 ∧ exponent ≤ 2045 ∧ (exponent = 0 ∨ Nat.pow 2 52 ≤ mantissa)

instance (m e : Nat) : Decidable (Binary64.Canonical m e) := by
  unfold Binary64.Canonical; infer_instance

/-- A double.  The finite one stands for `± mantissa * 2 ^ exponent * 2 ^ -1074`. -/
inductive Binary64 where
  | nan
  | infinite (negative : Bool)
  | finite (negative : Bool) (mantissa exponent : Nat)
      (canonical : Binary64.Canonical mantissa exponent)
  deriving DecidableEq, Repr

namespace Binary64

/-- How many units make one. -/
@[irreducible] def one : Nat := Nat.pow 2 1074

instance : Inhabited Binary64 := ⟨.nan⟩

/-! ### Rounding to a double -/

/-- The finite double with these parts; beyond the largest one there is only infinity. -/
def ofParts (negative : Bool) (m e : Nat) : Binary64 :=
  if h : Canonical m e then .finite negative m e h else .infinite negative

/-- The double nearest to `n / d` units, a tie going to the even mantissa. -/
def nearest (negative : Bool) (n d : Nat) : Binary64 :=
  let e := (n / d).log2 - 52
  let m := roundDiv n (d * Nat.pow 2 e)
  if m = Nat.pow 2 53 then ofParts negative (Nat.pow 2 52) (e + 1) else ofParts negative m e

/-- The double nearest to the fraction `n / d`. -/
def ofRatio (n : Int) (d : Nat) : Binary64 :=
  nearest (n < 0) (n.natAbs * one) d

/-- The double nearest to a whole number. -/
def ofInt (n : Int) : Binary64 := ofRatio n 1

instance : IntCast Binary64 := ⟨ofInt⟩
instance : NatCast Binary64 := ⟨fun n => ofInt n⟩
instance (n : Nat) : OfNat Binary64 n := ⟨ofInt n⟩

/-- The double nearest to `coefficient * 10 ^ exponent`.  Exponents far outside the range are
answered without computing the power. -/
def ofDecimal (negative : Bool) (coefficient : Nat) (exponent : Int) : Binary64 :=
  if coefficient = 0 then ofParts negative 0 0
  else
    let top : Int := (Nat.toDigits 10 coefficient).length + exponent
    if 400 < top then .infinite negative
    else if top < -400 then ofParts negative 0 0
    else if 0 ≤ exponent then nearest negative (coefficient * Nat.pow 10 exponent.toNat * one) 1
    else nearest negative (coefficient * one) (Nat.pow 10 (-exponent).toNat)

instance : OfScientific Binary64 where
  ofScientific coefficient decreases exponent :=
    ofDecimal false coefficient (if decreases then -(exponent : Int) else exponent)

/-! ### Parts -/

def isNaN : Binary64 → Bool
  | .nan => true
  | _ => false

def isFinite : Binary64 → Bool
  | .finite .. => true
  | _ => false

def isZero : Binary64 → Bool
  | .finite _ m _ _ => m = 0
  | _ => false

/-- The sign bit; NaN has none. -/
def isNegative : Binary64 → Bool
  | .nan => false
  | .infinite s => s
  | .finite s .. => s

/-- The distance from zero, in units.  An infinity lies beyond every finite double. -/
def magnitude : Binary64 → Nat
  | .nan => 0
  | .infinite _ => Nat.pow 2 2098
  | .finite _ m e _ => m * Nat.pow 2 e

/-- The signed number of units. -/
def units (x : Binary64) : Int :=
  if x.isNegative then -(x.magnitude : Int) else x.magnitude

/-! ### Order -/

/-- Below, in the order of the standard: NaN is below nothing and above nothing. -/
protected def Lt (x y : Binary64) : Prop := x.isNaN = false ∧ y.isNaN = false ∧ x.units < y.units

/-- At most, in the order of the standard. -/
protected def Le (x y : Binary64) : Prop := x.isNaN = false ∧ y.isNaN = false ∧ x.units ≤ y.units

instance : LT Binary64 := ⟨Binary64.Lt⟩
instance : LE Binary64 := ⟨Binary64.Le⟩

instance (x y : Binary64) : Decidable (x < y) :=
  inferInstanceAs (Decidable (_ ∧ _ ∧ _))

instance (x y : Binary64) : Decidable (x ≤ y) :=
  inferInstanceAs (Decidable (_ ∧ _ ∧ _))

theorem not_nan_lt (x : Binary64) : ¬ Binary64.nan < x := fun h => by cases h.1

theorem not_lt_nan (x : Binary64) : ¬ x < Binary64.nan := fun h => by cases h.2.1

/-! ### Arithmetic -/

protected def neg : Binary64 → Binary64
  | .nan => .nan
  | .infinite s => .infinite (!s)
  | .finite s m e h => .finite (!s) m e h

/-- The exact sum, rounded.  A sum of nothing is negative only when both zeros are. -/
protected def add (x y : Binary64) : Binary64 :=
  match x, y with
  | .nan, _ | _, .nan => .nan
  | .infinite s, .infinite t => if s = t then .infinite s else .nan
  | .infinite s, .finite .. => .infinite s
  | .finite .., .infinite t => .infinite t
  | .finite s .., .finite t .. =>
    let n := x.units + y.units
    if n = 0 then ofParts (s && t) 0 0 else nearest (n < 0) n.natAbs 1

/-- The exact product, rounded. -/
protected def mul (x y : Binary64) : Binary64 :=
  let negative := x.isNegative != y.isNegative
  match x, y with
  | .nan, _ | _, .nan => .nan
  | .finite .., .finite .. => nearest negative (x.magnitude * y.magnitude) one
  | _, _ => if x.magnitude = 0 ∨ y.magnitude = 0 then .nan else .infinite negative

/-- The exact quotient, rounded. -/
protected def div (x y : Binary64) : Binary64 :=
  let negative := x.isNegative != y.isNegative
  match x, y with
  | .nan, _ | _, .nan => .nan
  | .infinite _, .infinite _ => .nan
  | .infinite _, .finite .. => .infinite negative
  | .finite .., .infinite _ => ofParts negative 0 0
  | .finite .., .finite .. =>
    if y.magnitude = 0 then
      if x.magnitude = 0 then .nan else .infinite negative
    else nearest negative (x.magnitude * one) y.magnitude

instance : Neg Binary64 := ⟨Binary64.neg⟩
instance : Add Binary64 := ⟨Binary64.add⟩
instance : Sub Binary64 := ⟨fun x y => Binary64.add x (Binary64.neg y)⟩
instance : Mul Binary64 := ⟨Binary64.mul⟩
instance : Div Binary64 := ⟨Binary64.div⟩

/-! ### Whole numbers and decimal places -/

/-- The nearest whole number, a half going to the even neighbour. -/
def round? : Binary64 → Option Int
  | .finite s m e _ =>
    let k : Int := roundDiv (m * Nat.pow 2 e) one
    some (if s then -k else k)
  | _ => none

/-- The whole number before the point. -/
def truncate? : Binary64 → Option Int
  | .finite s m e _ =>
    let k : Int := (m * Nat.pow 2 e / one : Nat)
    some (if s then -k else k)
  | _ => none

/-- The double nearest to the exact value rounded to this many decimal places. -/
def roundTo (places : Nat) : Binary64 → Binary64
  | .finite s m e _ =>
    nearest s (roundDiv (m * Nat.pow 2 e * Nat.pow 10 places) one * one) (Nat.pow 10 places)
  | x => x

end Binary64

end ContractSurvey
