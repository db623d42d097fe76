import ContractSurvey.Number.Quotient
import ContractSurvey.Profile.Basic

/-!
# Chart — Palette

Colours and shares, as all charts use them.
-/

namespace ContractSurvey.Chart

/-- The colours that rows take in turn. -/
def cycle : List String :=
  ["#667eea", "#764ba2", "#2ed573", "#ffa502", "#ff6b35", "#1e90ff", "#ff4757", "#a4b0be"]

/-- The colour of what has none of its own. -/
def neutral : String := "#a4b0be"

/-- The colour of the row at a place. -/
def cycleColor (place : Nat) : String := (cycle[place % cycle.length]?).getD neutral

/-- The colours of categories and token standards, which share names. -/
def named : List (String × String) :=
  [("ERC20", "#667eea"), ("ERC721", "#764ba2"), ("ERC1155", "#1e90ff"), ("Proxy", "#ffa502"),
   ("Security", "#2ed573"), ("DeFi", "#ff6b35"), ("Gas Optimization", "#ff4757")]

def namedColor (name : String) : String := (named.lookup name).getD neutral

def levelColor : ComplexityLevel → String
  | .low => "#2ed573"
  | .medium => "#ffa502"
  | .high => "#ff4757"

/-- A fraction in percent with two places. -/
def percent (fraction : Binary64) : Binary64 := (fraction * 100).roundTo 2

/-- A part of a count in percent, and nothing of none. -/
def share (part total : Nat) : Binary64 :=
  if 0 < total then percent (Binary64.ofRatio part total) else 0

/-- A part of a total size in percent, and nothing of a total that is not positive. -/
def sizeShare (part total : Quantity) : Except QuantityError Binary64 :=
  if total.isPositive then (part.quotient total).map percent else .ok 0

/-- The size of all contracts together. -/
def totalSize (ps : List Profile) : Except QuantityError Quantity :=
  Quantity.total (ps.map (·.size))

/-- The mean of the sizes with two places, zero for no contracts. -/
def averageSize (ps : List Profile) : Except QuantityError Binary64 :=
  if ps.isEmpty then .ok 0
  else do
    let total ← totalSize ps
    let mean ← total.quotient (.whole ps.length)
    return mean.roundTo 2

end ContractSurvey.Chart
