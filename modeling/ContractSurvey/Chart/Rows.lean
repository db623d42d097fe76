import ContractSurvey.Chart.Palette
import ContractSurvey.Comparison.Basic

/-!
# Chart — Rows

The rows of the charts.  Rows that count something come in descending order, equal ones in the
order in which they were met.  A chart that needs a size or a score is refused where one is
missing.
-/

namespace ContractSurvey.Chart

/-! ### Sizes -/

structure SizeRow where
  name : Option String
  address : String
  size : Quantity
  percentage : Binary64
  color : String
  deriving DecidableEq

/-- The row of a contract at a place, given the size of all contracts. -/
def sizeRow (total : Quantity) (p : Profile) (place : Nat) : Except QuantityError SizeRow := do
  let size ← Quantity.stated p.size
  let percentage ← sizeShare size total
  return { name := p.name, address := p.address, size, percentage, color := cycleColor place }

/-- One row a contract, coloured by its place among the contracts, the largest first. -/
def sizes (ps : List Profile) : Except QuantityError (List SizeRow) := do
  let total ← totalSize ps
  let rows ← ps.zipIdx.mapM fun (p, place) => sizeRow total p place
  return rows.mergeSort fun a b => b.size ≤ a.size

def SizeRow.toJson (r : SizeRow) : Json :=
  .object
    [("contract_name", .ofText? r.name), ("address", .text r.address), ("size", .ofQuantity r.size),
     ("percentage", .float r.percentage), ("color", .text r.color)]

/-! ### Functions by category -/

structure FunctionRow where
  category : Category
  count : Nat
  percentage : Binary64
  color : String
  deriving DecidableEq

/-- One row a category that occurs, with the number of its functions in all contracts. -/
def functions (ps : List Profile) : List FunctionRow :=
  let categories := ps.flatMap fun p => p.patterns.map (·.category)
  let rows := (tally categories).map fun (c, n) =>
    { category := c, count := n, percentage := share n categories.length,
      color := namedColor c.label : FunctionRow }
  rows.mergeSort fun a b => b.count ≤ a.count

def FunctionRow.toJson (r : FunctionRow) : Json :=
  .object
    [("category", .text r.category.label), ("count", .int r.count),
     ("percentage", .float r.percentage), ("color", .text r.color)]

/-! ### Similarities -/

/-- A cell of the heat map: a similarity without its total. -/
def heatCell (s : Similarity) : Json :=
  .object
    [("contract_a", .text s.first), ("contract_b", .text s.second),
     ("similarity", .float s.percent), ("shared_functions", .ofTexts s.shared)]

/-! ### Standards -/

structure StandardRow where
  standard : String
  contracts : Nat
  total : Nat
  percentage : Binary64
  color : String
  deriving DecidableEq

/-- One row a standard, with the number of contracts that report it. -/
def standards (ps : List Profile) : List StandardRow :=
  let rows := (tally (ps.flatMap (·.standardNames))).map fun (s, n) =>
    { standard := s, contracts := n, total := ps.length, percentage := share n ps.length,
      color := namedColor s : StandardRow }
  rows.mergeSort fun a b => b.contracts ≤ a.contracts

def StandardRow.toJson (r : StandardRow) : Json :=
  .object
    [("standard", .text r.standard), ("compliant_contracts", .int r.contracts),
     ("total_contracts", .int r.total), ("percentage", .float r.percentage),
     ("color", .text r.color)]

/-! ### Security features -/

structure SecurityRow where
  feature : String
  contracts : List (Option String)
  percentage : Binary64
  deriving DecidableEq

/-- The names of the contracts with each feature. -/
def byFeature (ps : List Profile) : Ledger String (List (Option String)) :=
  (ps.flatMap fun p => p.security.map fun f => (f, p.name)).foldl
    (fun l (f, name) => l.alter f fun names => names.getD [] ++ [name]) []

/-- One row a feature, with the names of the contracts that have it. -/
def security (ps : List Profile) : List SecurityRow :=
  let rows := (byFeature ps).map fun (f, names) =>
    { feature := f, contracts := names, percentage := share names.length ps.length : SecurityRow }
  rows.mergeSort fun a b => b.contracts.length ≤ a.contracts.length

def SecurityRow.toJson (r : SecurityRow) : Json :=
  .object
    [("feature", .text r.feature), ("contracts_with_feature", .ofTexts? r.contracts),
     ("count", .int r.contracts.length), ("percentage", .float r.percentage)]

/-! ### Complexity -/

structure LevelRow where
  level : ComplexityLevel
  contracts : List (Option String)
  deriving DecidableEq

/-- One row a level that occurs, from low to high, with the names of its contracts.  Every contract
has to have a level. -/
def levels (ps : List Profile) : Except QuantityError (List LevelRow) :=
  if ps.all (·.level?.isSome) then
    .ok
      ((ComplexityLevel.all.map fun l =>
        { level := l, contracts := (ps.filter (·.level? = some l)).map (·.name) : LevelRow }).filter
        fun r => !r.contracts.isEmpty)
  else .error .unordered

def LevelRow.toJson (r : LevelRow) : Json :=
  .object
    [("complexity_level", .text r.level.label), ("count", .int r.contracts.length),
     ("contracts", .ofTexts? r.contracts), ("color", .text (levelColor r.level))]

/-! ### Proxies -/

structure ProxyRow where
  proxy : String
  implementation : String
  proxySize : Option Quantity
  implementationSize : Option Quantity
  description : String
  deriving DecidableEq

/-- The size of the last contract with this address, zero if there is none. -/
def sizeAt (ps : List Profile) (address : String) : Option Quantity :=
  ((ps.reverse.find? (·.address = address)).map (·.size)).getD (some (.whole 0))

/-- One row a proxy with its implementation. -/
def proxies (rs : List Relationship) (ps : List Profile) : List ProxyRow :=
  (rs.filter (·.kind = .proxyOf)).map fun r =>
    { proxy := r.first, implementation := r.second, proxySize := sizeAt ps r.first,
      implementationSize := sizeAt ps r.second, description := r.description }

def ProxyRow.toJson (r : ProxyRow) : Json :=
  .object
    [("proxy_address", .text r.proxy), ("implementation_address", .text r.implementation),
     ("proxy_name", .text ("Proxy (" ++ Address.short r.proxy 4 ++ ")")),
     ("implementation_name",
       .text ("Implementation (" ++ Address.short r.implementation 4 ++ ")")),
     ("proxy_size", .ofQuantity? r.proxySize),
     ("implementation_size", .ofQuantity? r.implementationSize),
     ("relationship", .text r.description)]

end ContractSurvey.Chart
