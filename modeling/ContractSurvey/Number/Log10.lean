import ContractSurvey.Number.Binary64

/-!
# Number — Log10

The decimal logarithm of a double, put together from its exponent and its fraction.  The natural
logarithm of the fraction is rounded once; the multiples of it and of the logarithm of two are
doubles themselves, so that the sum may miss the nearest double by a little.  The doubles that have
a logarithm are the positive ones, which `log10?_isSome_iff` says.

The natural logarithm comes from the binary digits of the logarithm to base two, which squaring
again and again brings to light; the errors of the cut-off shrink with every digit.
-/

namespace ContractSurvey

namespace Log10

/-- The binary digits that are computed of a logarithm. -/
def steps : Nat := 256

/-- The places kept behind the point while squaring. -/
def places : Nat := 320

/-- The first `n` binary digits of the logarithm to base two of `y`, which lies in `[1, 2)` and is
counted in steps of `2 ^ -places`; they continue the digits in `acc`. -/
def binaryDigits : Nat → Nat → Nat → Nat
  | 0, _, acc => acc
  | n + 1, y, acc =>
    let square := (y * y) >>> places
    if Nat.pow 2 (places + 1) ≤ square then binaryDigits n (square / 2) (2 * acc + 1)
    else binaryDigits n square (2 * acc)

/-- The natural logarithm of two, the sum of all `1 / (k * 2 ^ k)`, in steps of `2 ^ -steps`. -/
def ofTwo : Nat :=
  (List.range' 1 steps).foldl (fun sum k => sum + Nat.pow 2 (steps - k) / k) 0

/-- The natural logarithm of `n` divided by the power of two at its first digit, or by the next
one if it is to be below one; rounded. -/
def ofFraction (n : Nat) (belowOne : Bool) : Binary64 :=
  let digits := binaryDigits steps (n * Nat.pow 2 places / Nat.pow 2 n.log2) 0
  let base : Int := if belowOne then digits - Nat.pow 2 steps else digits
  .ofRatio (base * ofTwo) (Nat.pow 2 (2 * steps))

/-- What the natural logarithm is multiplied by. -/
def perNatural : Binary64 := 0.4342944819032518

/-- The logarithm of two, cut off so that its product with an exponent is exact. -/
def twoHigh : Binary64 := 0.30102999566361177

/-- What is cut off. -/
def twoLow : Binary64 := 3.694239077158931e-13

end Log10

/-- The decimal logarithm of a positive double; no other has one.  The fraction lies in `[1, 2)`
for a number from one on, and in `[1/2, 1)` below one. -/
def log10? (x : Binary64) : Option Binary64 :=
  if 0 < x then
    if x.isFinite then
      let n := x.magnitude
      let exponent : Int := n.log2 - 1074
      let belowOne := exponent < 0
      let y := Binary64.ofInt (if belowOne then exponent + 1 else exponent)
      some (y * Log10.twoLow + Log10.perNatural * Log10.ofFraction n belowOne + y * Log10.twoHigh)
    else some x
  else none

theorem log10?_isSome_iff (x : Binary64) : (log10? x).isSome ↔ 0 < x := by
  unfold log10?
  split
  · split <;> simp_all
  · simp_all

end ContractSurvey
