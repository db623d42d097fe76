/-!
# Error

What can be wrong with the contracts that a survey is asked about.
-/

namespace ContractSurvey

inductive SurveyError where
  /-- The code handed in is empty. -/
  | emptyCode (address : String)
  /-- The node has no code at the address; the block stands there as it is shown. -/
  | noCode (address block : String)
  /-- A contract compared with itself. -/
  | selfComparison (address : String)
  /-- An address that a comparison names twice. -/
  | duplicateContract (address : String)
  | other (text : String)
  deriving DecidableEq, Repr

namespace SurveyError

def message : SurveyError → String
  | .emptyCode a => "No bytecode at address " ++ a
  | .noCode a b => "No contract code at " ++ a ++ " (block " ++ b ++ ")"
  | .selfComparison a => "Cannot compare contract " ++ a ++ " with itself"
  | .duplicateContract a => "Duplicate contract in comparison request: " ++ a
  | .other s => s

/-- The value handed in is at fault, and not the chain. -/
def isValueError : SurveyError → Bool
  | .emptyCode _ | .selfComparison _ | .duplicateContract _ => true
  | _ => false

/-- The same contract stands on both sides. -/
def isSelfComparison : SurveyError → Bool
  | .selfComparison _ | .duplicateContract _ => true
  | _ => false

end SurveyError

end ContractSurvey
