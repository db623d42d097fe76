import ContractSurvey.Bytecode.Text
import ContractSurvey.Json.Basic
import ContractSurvey.Signature.Dictionary
import ContractSurvey.Text.Occurrence

/-!
# Profile — Pattern

Known functions recognised in a code, each with a confidence.  Candidates that the dictionary does
not know are dropped; the others are ranked by confidence and then by their place in the
dictionary.
-/

namespace ContractSurvey

/-- A function recognised in a code. -/
structure Pattern where
  selector : Selector
  name : String
  category : Category
  confidence : Binary64
  standard : Option String
  deriving DecidableEq

namespace Pattern

/-- What a selector found in the code is worth by itself. -/
def baseConfidence : Binary64 := 0.7

/-- Added when the selector's digits occur more than once. -/
def recurrenceBonus : Binary64 := 0.2

/-- Texts that some compilers leave in the code, each in support of one selector. -/
def hints : List (Selector × String × Binary64) := [("0x70a08231", "balanceof", 0.1)]

/-- The confidence in a selector, given the text of the code. -/
def confidenceIn (selector : Selector) (code : List Char) : Binary64 :=
  let c := baseConfidence
  let c := if 1 < Text.occurrences (selector.toList.drop 2) code then c + recurrenceBonus else c
  let c :=
    match hints.lookup selector with
    | some (word, bonus) => if Text.occursIn word.toList code then c + bonus else c
    | none => c
  (if (1 : Binary64) < c then 1 else c).roundTo 4

/-- The pattern of a known function. -/
def ofSignature (code : List Char) (s : Signature) : Pattern :=
  ⟨s.selector, s.name, s.category, confidenceIn s.selector code, s.standard⟩

/-- Whether the first pattern is reported no later than the second. -/
def ranksBefore (p q : Pattern) : Bool :=
  q.confidence < p.confidence ||
    (!decide (p.confidence < q.confidence) && Signature.rank p.selector ≤ Signature.rank q.selector)

/-- The known functions among the candidates, the most certain first. -/
def classify (candidates : List Selector) (code : Option String) : List Pattern :=
  let cs := Bytecode.text code
  let known := (Sequence.distinct (candidates.map Text.lower)).filterMap Signature.lookup?
  (known.map (ofSignature cs)).mergeSort ranksBefore

def toJson (p : Pattern) : Json :=
  .object [("selector", .text p.selector), ("name", .text p.name),
    ("category", .text p.category.label), ("confidence", .float p.confidence),
    ("standard", .ofText? p.standard)]

end Pattern

end ContractSurvey
