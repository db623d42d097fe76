import ContractSurvey.Number.Log10
import ContractSurvey.Profile.Pattern

/-!
# Profile — Complexity

A score from 0 to 100: ten times the decimal logarithm of the size and two for each function, less
for a proxy and more for a financial protocol.
-/

namespace ContractSurvey

inductive ComplexityLevel where
  | low
  | medium
  | high
  deriving DecidableEq, Repr

namespace ComplexityLevel

def all : List ComplexityLevel := [.low, .medium, .high]

theorem mem_all (l : ComplexityLevel) : l ∈ all := by cases l <;> simp [all]

def label : ComplexityLevel → String
  | .low => "Low"
  | .medium => "Medium"
  | .high => "High"

/-- The level of a score: low below 30, high from 70 on. -/
def ofNumber {α : Type} [LT α] [DecidableLT α] [OfNat α 30] [OfNat α 70] (score : α) :
    ComplexityLevel :=
  if score < 30 then .low else if score < 70 then .medium else .high

/-- The level of a score, whole or measured. -/
def ofScore : Quantity → ComplexityLevel
  | .whole n => ofNumber n
  | .measured x => ofNumber x

end ComplexityLevel

namespace Complexity

/-- What the size adds: ten times its logarithm, and nothing for a size without one. -/
def sizePart (size : Binary64) : Binary64 :=
  match log10? size with
  | some x => x * 10
  | none => 0

/-- The score before it is brought into range. -/
def raw (size : Binary64) (patterns : List Pattern) : Binary64 :=
  let x := sizePart size + Binary64.ofInt (2 * patterns.length)
  let x := if patterns.any (·.category = .proxy) then x * 0.7 else x
  if patterns.any (·.category = .deFi) then x * 1.3 else x

/-- The score: brought into the range from 0 to 100 and rounded to a whole number. -/
def score (size : Binary64) (patterns : List Pattern) : Int :=
  let x := raw size patterns
  let x := if x < 100 then x else 100
  let x := if 0 < x then x else 0
  x.round?.getD 0

end Complexity

end ContractSurvey
