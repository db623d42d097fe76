import ContractSurvey.Chart.Rows
import ContractSurvey.Text.Quoted

/-!
# Chart — Board

The figures of all contracts together, and all charts of a comparison under their names.  A board
is made as a whole: where one part of it cannot be computed there is none.
-/

namespace ContractSurvey.Chart

/-- A contract as the figures name it; the empty one stands for none. -/
structure ContractMark where
  name : Option String := some ""
  address : String := ""
  size : Quantity := .whole 0
  deriving DecidableEq

def ContractMark.ofProfile (p : Profile) : Except QuantityError ContractMark :=
  (Quantity.stated p.size).map fun size => ⟨p.name, p.address, size⟩

def ContractMark.toJson (m : ContractMark) : Json :=
  .object
    [("name", .ofText? m.name), ("address", .text m.address), ("size", .ofQuantity m.size)]

structure Metrics where
  contracts : Nat
  totalSize : Quantity
  averageSize : Binary64
  largest : ContractMark
  smallest : ContractMark
  standards : List String
  secured : Nat
  proxies : Nat
  deriving DecidableEq

/-- The contracts from the largest to the smallest, equal ones in their order. -/
def bySize (ms : List ContractMark) : List ContractMark :=
  ms.mergeSort fun a b => b.size ≤ a.size

/-- The figures of some contracts. -/
def metrics (ps : List Profile) : Except QuantityError Metrics := do
  let totalSize ← Chart.totalSize ps
  let averageSize ← Chart.averageSize ps
  let marks ← ps.mapM ContractMark.ofProfile
  return {
    contracts := ps.length
    totalSize
    averageSize
    largest := (bySize marks).head?.getD {}
    smallest := (bySize marks).getLast?.getD {}
    standards := Sequence.distinct (ps.flatMap (·.standardNames))
    secured := (ps.filter fun p => !p.security.isEmpty).length
    proxies := (ps.filter (·.isProxy)).length }

def Metrics.toJson (m : Metrics) : Json :=
  .object
    [("total_contracts", .int m.contracts), ("total_size", .ofQuantity m.totalSize),
     ("average_size", .float m.averageSize), ("largest_contract", m.largest.toJson),
     ("smallest_contract", m.smallest.toJson), ("standards_detected", .ofTexts m.standards),
     ("security_features_found", .int m.secured), ("proxy_contracts_found", .int m.proxies)]

/-- The name under which the figures stand beside the charts. -/
def metricsName : String := "metrics"

/-- The charts and the figures of a comparison. -/
structure Board where
  sizes : List SizeRow
  functions : List FunctionRow
  similarities : List Similarity
  standards : List StandardRow
  security : List SecurityRow
  levels : List LevelRow
  proxies : List ProxyRow
  metrics : Metrics

namespace Board

/-- The board of a comparison. -/
def ofComparison (c : Comparison) : Except QuantityError Board := do
  let sizes ← Chart.sizes c.profiles
  let levels ← Chart.levels c.profiles
  let metrics ← Chart.metrics c.profiles
  return {
    sizes
    functions := Chart.functions c.profiles
    similarities := c.similarities
    standards := Chart.standards c.profiles
    security := Chart.security c.profiles
    levels
    proxies := Chart.proxies c.relationships c.profiles
    metrics }

/-- The charts by name. -/
def charts (b : Board) : List (String × Json) :=
  [("contract_sizes", .array (b.sizes.map (·.toJson))),
   ("function_distribution", .array (b.functions.map (·.toJson))),
   ("similarity_matrix", .array (b.similarities.map heatCell)),
   ("standards_compliance", .array (b.standards.map (·.toJson))),
   ("security_features", .array (b.security.map (·.toJson))),
   ("complexity_distribution", .array (b.levels.map (·.toJson))),
   ("proxy_relationships", .array (b.proxies.map (·.toJson)))]

/-- All charts and the figures by name. -/
def fields (b : Board) : List (String × Json) := b.charts ++ [(metricsName, b.metrics.toJson)]

end Board

/-- Why a chart is not shown. -/
inductive ChartError where
  /-- No chart has this name. -/
  | unknown (name : String)
  | quantity (e : QuantityError)
  deriving DecidableEq, Repr

def ChartError.message : ChartError → String
  | .unknown name => Text.quoted name
  | .quantity e => e.message

/-- The chart of this name.  The figures are no chart, which is said before a board is made; of
other names only the board tells. -/
def chart (c : Comparison) (name : String) : Except ChartError Json :=
  if name = metricsName then .error (.unknown name)
  else
    match Board.ofComparison c with
    | .error e => .error (.quantity e)
    | .ok b =>
      match b.charts.lookup name with
      | some v => .ok v
      | none => .error (.unknown name)

/-- The board together with what the comparison is about. -/
def summary (c : Comparison) : Except QuantityError Json :=
  (Board.ofComparison c).map fun b =>
    .object
      (("status", .text c.status.label) :: ("network", .ofText? c.network) :: b.fields)

end ContractSurvey.Chart
