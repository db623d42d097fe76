import ContractSurvey.Json.Basic
import ContractSurvey.Node.Fetcher

/-!
# Node — Record

What went over the line to a node, for a record of it: the questions that were asked and the pauses
that were made, each in order.
-/

namespace ContractSurvey

def Block.toJson : Block → Json
  | .number n => .int n
  | .tag name => .text name

def Question.toJson : Question → Json
  | .code address block => .array [.text "get_code", .text address, block.toJson]
  | .chain => .array [.text "chain_id"]

namespace Event

variable {τ : Type}

def question? : Event τ → Option Question
  | .asked _ q => some q
  | .slept _ => none

def pause? : Event τ → Option τ
  | .slept d => some d
  | .asked _ _ => none

end Event

/-- The questions among some events. -/
def questions {τ : Type} (events : List (Event τ)) : List Question :=
  events.filterMap (·.question?)

/-- The pauses among some events. -/
def pauses {τ : Type} (events : List (Event τ)) : List τ := events.filterMap (·.pause?)

end ContractSurvey
