import ContractSurvey.Comparison.Basic
import ContractSurvey.Csv
import ContractSurvey.Report.Size

/-!
# Report — Table

A comparison as comma-separated records in three parts, each under a title and a row of headings:
the contracts, the recognised functions, the similarities.  An empty record stands between parts.
-/

namespace ContractSurvey.Report

def contractHeadings : List String :=
  ["Address", "Name", "Size (bytes)", "Size (formatted)", "Standards", "Functions Count",
   "Complexity Level", "Complexity Score", "Security Features", "Is Proxy", "Proxy Type"]

def functionHeadings : List String :=
  ["Contract Address", "Contract Name", "Selector", "Function Name", "Category"]

def similarityHeadings : List String :=
  ["Contract A", "Contract B", "Similarity (%)", "Shared Functions", "Total Functions"]

/-- The name as a field, empty if there is none. -/
def nameField (p : Profile) : String := p.name.getD ""

/-- A quantity as a field, empty if there is none. -/
def quantityField : Option Quantity → Except QuantityError String
  | some q => q.text
  | none => .ok ""

def contractRecord (p : Profile) : Except QuantityError (List String) := do
  let formatted ← (Quantity.stated p.size).bind bytesText
  let level ← p.level
  let size ← quantityField p.size
  let score ← quantityField p.complexity
  return [
    p.address, nameField p, size, formatted, ", ".intercalate p.standardNames,
    toString p.functionCount, level.label, score, ", ".intercalate p.security,
    if p.isProxy then "True" else "False", p.proxyLabel.getD ""]

def functionRecords (p : Profile) : List (List String) :=
  p.patterns.map fun f => [p.address, nameField p, f.selector, f.name, f.category.label]

def similarityRecord (s : Similarity) : Except QuantityError (List String) :=
  (quantityField s.total).map fun total =>
    [s.first, s.second, s.percent.text, toString s.shared.length, total]

/-- The records of a comparison. -/
def records (c : Comparison) : Except QuantityError (List (List String)) := do
  let contracts ← c.profiles.mapM contractRecord
  let similarities ← c.similarities.mapM similarityRecord
  return [["Contract Analysis Summary"], contractHeadings] ++ contracts ++
    [[], ["Detected Functions"], functionHeadings] ++ c.profiles.flatMap functionRecords ++
    [[], ["Contract Similarities"], similarityHeadings] ++ similarities

/-- The records as text, with quotes for a carriage return or without. -/
def table (returns : Bool) (c : Comparison) : Except QuantityError String :=
  (records c).map (Csv.print returns)

end ContractSurvey.Report
