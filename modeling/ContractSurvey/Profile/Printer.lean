import ContractSurvey.Profile.Basic

/-!
# Profile — Printer

A profile as JSON, in full and in brief, and as a few lines of text.  The full form names the level
of the score, so that there is none of a profile without a score.
-/

namespace ContractSurvey

/-- What is known of a trailer, or that there is none. -/
def Trailer.json (t : Option Trailer) : Json :=
  .object [("has_metadata", .bool t.isSome), ("ipfs_hash", .ofText? (t.bind (·.ipfsHash)))]

namespace Profile

def proxyLabel (p : Profile) : Option String := p.proxyKind.map (·.label)

/-- The fields of a full profile with this level. -/
def fieldsWith (level : ComplexityLevel) (p : Profile) : List (String × Json) :=
  [("address", .text p.address),
   ("contract_name", .ofText? p.name),
   ("size", .ofQuantity? p.size),
   ("bytecode_hash", .ofText? p.codeHash),
   ("total_selectors", .ofQuantity? p.candidates),
   ("detected_patterns", .array (p.patterns.map (·.toJson))),
   ("standards", .ofTexts p.standardNames),
   ("standards_compliance", .array (p.standards.map (·.toJson))),
   ("security", .object
     [("has_controls", .bool !p.security.isEmpty), ("features", .ofTexts p.security)]),
   ("proxy", .object [("is_proxy", .bool p.isProxy), ("type", .ofText? p.proxyLabel)]),
   ("complexity", .object
     [("score", .ofQuantity? p.complexity), ("level", .text level.label)]),
   ("gas_optimizations", .ofTexts p.gas),
   ("opcode_flags", .ofTexts p.opcodeFlags),
   ("metadata", Trailer.json p.trailer)]

/-- The fields of a full profile. -/
def fields (p : Profile) : Except QuantityError (List (String × Json)) :=
  p.level.map fun level => p.fieldsWith level

def toJson (p : Profile) : Except QuantityError Json := p.fields.map .object

/-- The profile in brief. -/
def brief (p : Profile) : Json :=
  .object
    [("address", .text p.address),
     ("size", .ofQuantity? p.size),
     ("function_count", .int p.functionCount),
     ("standards", .ofTexts p.standardNames),
     ("proxy_type", .ofText? p.proxyLabel),
     ("complexity_score", .ofQuantity? p.complexity),
     ("security_features", .ofTexts p.security)]

/-- The line of a standard in the summary. -/
def standardLine (c : Compliance) : Except QuantityError String :=
  (Quantity.shown c.percent).map fun percent => "  - " ++ c.standard ++ ": " ++ percent ++ "%"

/-- The lines of the summary. -/
def summaryLines (p : Profile) : Except QuantityError (List String) := do
  let size ← Quantity.shown p.size
  let candidates ← Quantity.shown p.candidates
  let complexity ← Quantity.shown p.complexity
  let standards ← p.standards.mapM standardLine
  return [
    "Contract: " ++ p.title ++ " (" ++ p.address ++ ")",
    "Size: " ++ size ++ " bytes",
    "Functions: " ++ toString p.functionCount ++ " recognised / " ++ candidates ++ " candidates",
    "Complexity: " ++ complexity ++ "/100 (" ++ p.levelTitle ++ ")"] ++
    (if standards.isEmpty then [] else "Standards:" :: standards) ++
    (match p.proxyKind with
     | some k => ["Proxy: " ++ k.label]
     | none => []) ++
    (if p.security.isEmpty then [] else ["Security: " ++ ", ".intercalate p.security])

/-- A few lines on the contract. -/
def summary (p : Profile) : Except QuantityError String :=
  p.summaryLines.map ("\n".intercalate ·)

end Profile

end ContractSurvey
