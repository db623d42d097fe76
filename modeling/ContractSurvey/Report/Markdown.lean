import ContractSurvey.Report.Data

/-!
# Report — Markdown

A comparison as headings and lists for a reader.
-/

namespace ContractSurvey.Report

/-- Texts with commas between them, or a word for none. -/
def listed (ss : List String) : String :=
  if (", ".intercalate ss).isEmpty then "None" else ", ".intercalate ss

def overview (c : Comparison) (now : Moment) : Except QuantityError (List String) := do
  let mean ← Chart.averageSize c.profiles
  let averageSize ← bytesText (.measured mean)
  return [
    "# Bytecode Analysis Summary Report",
    "Generated: " ++ now.readable,
    "",
    "## Overview",
    "- Total Contracts: " ++ toString c.profiles.length,
    "- Average Size: " ++ averageSize,
    "- Standards Found: " ++ listed (standardsFound c),
    "- Proxy Contracts: " ++ toString (proxyCount c)] ++
    (if c.failed.isEmpty then [] else ["- Failed Addresses: " ++ ", ".intercalate c.failed]) ++
    [""]

def contractSection (p : Profile) : Except QuantityError (List String) := do
  let size ← (Quantity.stated p.size).bind bytesText
  let level ← p.level
  let score ← Quantity.shown p.complexity
  return [
    "### " ++ p.title,
    "- Address: " ++ p.address,
    "- Size: " ++ size,
    "- Complexity: " ++ level.label ++ " (" ++ score ++ "/100)",
    "- Standards: " ++ listed p.standardNames,
    "- Functions: " ++ toString p.functionCount,
    "- Security Features: " ++ listed p.security] ++
    (match p.proxyKind with
     | some k => ["- Proxy Type: " ++ k.label]
     | none => []) ++ [""]

def similarityLine (s : Similarity) : String :=
  "- " ++ s.first ++ " <-> " ++ s.second ++ ": " ++ s.percent.fixed 1 ++ "% similar"

def relationshipLine (r : Relationship) : String :=
  "- " ++ r.kind.label ++ ": " ++ r.description

/-- The lines of the report. -/
def markdownLines (c : Comparison) (now : Moment) : Except QuantityError (List String) := do
  let overview ← overview c now
  let sections ← c.profiles.mapM contractSection
  return overview ++ "## Contract Details" :: sections.flatten ++
    (if c.similarities.isEmpty then []
     else "## Contract Similarities" :: c.similarities.map similarityLine ++ [""]) ++
    (if c.relationships.isEmpty then []
     else "## Detected Relationships" :: c.relationships.map relationshipLine)

/-- The report as text. -/
def markdown (c : Comparison) (now : Moment) : Except QuantityError String :=
  (markdownLines c now).map ("\n".intercalate ·)

end ContractSurvey.Report
