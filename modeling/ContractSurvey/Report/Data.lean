import ContractSurvey.Chart.Palette
import ContractSurvey.Comparison.Basic
import ContractSurvey.Json.Printer
import ContractSurvey.Report.Moment
import ContractSurvey.Report.Size

/-!
# Report — Data

A comparison as one JSON value: notes on the report, a summary, and everything the comparison
holds.  Notes handed in replace those of the report in place, and new ones follow.
-/

namespace ContractSurvey.Report

/-- The version of the report's form. -/
def version : String := "1.0.0"

/-- The notes that every report has. -/
def ownNotes (c : Comparison) (now : Moment) : Ledger String Json :=
  [("export_time", .text now.universal),
   ("version", .text version),
   ("network", .text (if c.network.getD "" = "" then "mainnet" else c.network.getD "")),
   ("analysis_type", .text (if c.profiles.length = 1 then "single" else "multiple")),
   ("total_contracts", .int c.profiles.length)]

/-- The notes of a report with those handed in. -/
def notes (c : Comparison) (now : Moment) (given : List (String × Json)) : Ledger String Json :=
  given.foldl (fun l (k, v) => l.put k v) (ownNotes c now)

/-- The different standards of all contracts. -/
def standardsFound (c : Comparison) : List String :=
  Sequence.distinct (c.profiles.flatMap (·.standardNames))

def proxyCount (c : Comparison) : Nat := (c.profiles.filter (·.isProxy)).length

/-- The figures of a report. -/
def figures (c : Comparison) : Except QuantityError Json :=
  (Chart.averageSize c.profiles).map fun averageSize =>
    .object
      [("total_contracts", .int c.profiles.length),
       ("total_similarities", .int c.similarities.length),
       ("total_relationships", .int c.relationships.length),
       ("average_size", .float averageSize),
       ("standards_found", .ofTexts (standardsFound c)),
       ("security_features_found",
         .ofTexts (Sequence.distinct (c.profiles.flatMap (·.security)))),
       ("proxy_contracts_count", .int (proxyCount c))]

/-- A contract with its size for a reader. -/
def contractJson (p : Profile) : Except QuantityError Json := do
  let fields ← p.fields
  let size ← (Quantity.stated p.size).bind bytesText
  return .object (fields ++ [("size_formatted", .text size)])

/-- The whole report. -/
def data (c : Comparison) (now : Moment) (given : List (String × Json)) :
    Except QuantityError Json := do
  let summary ← figures c
  let contracts ← c.profiles.mapM contractJson
  return .object
    [("metadata", .object (notes c now given)),
     ("status", .text c.status.label),
     ("summary", summary),
     ("contracts", .array contracts),
     ("similarities", .array (c.similarities.map (·.toJson))),
     ("relationships", .array (c.relationships.map (·.toJson))),
     ("failed_addresses", .ofTexts c.failed)]

/-- Why there is no report. -/
inductive Error where
  | quantity (e : QuantityError)
  | json (e : JsonError)
  deriving DecidableEq, Repr

def Error.message : Error → String
  | .quantity e => e.message
  | .json e => e.message

/-- The report as JSON text, with room for so many levels of values in each other. -/
def json (room : Nat) (c : Comparison) (now : Moment) (given : List (String × Json)) :
    Except Error String :=
  ((data c now given).mapError .quantity).bind fun d => (d.print room).mapError .json

end ContractSurvey.Report
