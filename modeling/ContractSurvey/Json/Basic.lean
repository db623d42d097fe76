import ContractSurvey.Number.Quantity

/-!
# Json — Basic

JSON values.  Whole numbers are kept apart from doubles, and the fields of an object keep their
order.
-/

namespace ContractSurvey

inductive Json where
  | null
  | bool (b : Bool)
  | int (n : Int)
  | float (x : Binary64)
  | text (s : String)
  | array (items : List Json)
  | object (fields : List (String × Json))

namespace Json

instance : Inhabited Json := ⟨.null⟩

/-- A text or `null`. -/
def ofText? : Option String → Json
  | none => .null
  | some s => .text s

/-- A list of texts. -/
def ofTexts (ss : List String) : Json := .array (ss.map .text)

/-- A list of texts some of which may be missing. -/
def ofTexts? (ss : List (Option String)) : Json := .array (ss.map .ofText?)

def ofQuantity : Quantity → Json
  | .whole n => .int n
  | .measured x => .float x

/-- A quantity or `null`. -/
def ofQuantity? : Option Quantity → Json
  | none => .null
  | some q => .ofQuantity q

/-! ### Parts -/

def text? : Json → Option String
  | .text s => some s
  | _ => none

/-- The items of an array; there are none of anything else. -/
def items : Json → List Json
  | .array items => items
  | _ => []

/-- The fields of an object; there are none of anything else. -/
def fields : Json → List (String × Json)
  | .object fields => fields
  | _ => []

/-- The value of the last field of this name. -/
def field? (name : String) (v : Json) : Option Json :=
  (v.fields.reverse.find? (·.1 = name)).map Prod.snd

end Json

end ContractSurvey
