import ContractSurvey.Profile.Basic

/-!
# Comparison — Similarity

How much of their recognised functions two contracts share: the share of the common selectors in
all selectors of the two, as a percentage with two places.  Two contracts without any recognised
function have no similarity.
-/

namespace ContractSurvey

structure Similarity where
  first : String
  second : String
  percent : Binary64
  shared : List String
  total : Option Quantity
  deriving DecidableEq

namespace Similarity

/-- The selectors of both contracts. -/
def common (a b : Profile) : List Selector := a.selectors.filter (· ∈ b.selectors)

/-- The selectors of one contract or the other. -/
def union (a b : Profile) : List Selector :=
  a.selectors ++ b.selectors.filter (· ∉ a.selectors)

/-- The name of a selector in a contract, the last one if several patterns have it. -/
def nameIn? (p : Profile) (s : Selector) : Option String :=
  (p.patterns.reverse.find? (·.selector = s)).map (·.name)

/-- The name of a selector in a contract.  One that the contract lacks stands for itself. -/
def nameIn (p : Profile) (s : Selector) : String := (nameIn? p s).getD s

/-- A share as a percentage with two places. -/
def percentage (part total : Nat) : Binary64 :=
  (Binary64.ofRatio part total * 100).roundTo 2

/-- The similarity of two contracts, if one of them has a recognised function. -/
def of? (a b : Profile) : Option Similarity :=
  let common := common a b
  let union := union a b
  if union.isEmpty then none
  else
    some
      { first := a.address
        second := b.address
        percent := percentage common.length union.length
        shared := (common.map (nameIn a)).mergeSort (· ≤ ·)
        total := some (.whole union.length) }

/-- The similarity of two contracts, which must have different addresses up to letter case. -/
def between (a b : Profile) : Except SurveyError (Option Similarity) :=
  if Text.lower a.address = Text.lower b.address then .error (.selfComparison a.address)
  else .ok (of? a b)

def toJson (s : Similarity) : Json :=
  .object
    [("contract_a", .text s.first), ("contract_b", .text s.second),
     ("similarity", .float s.percent), ("shared_functions", .ofTexts s.shared),
     ("total_functions", .ofQuantity? s.total)]

end Similarity

end ContractSurvey
