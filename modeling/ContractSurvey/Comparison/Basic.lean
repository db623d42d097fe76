import ContractSurvey.Comparison.Relationship
import ContractSurvey.Profile.Printer
import ContractSurvey.Sequence.Ledger

/-!
# Comparison

Several contracts compared pair by pair, in the order in which they come.  `Comparison.ofProfiles`
compares profiles and refuses an address that comes twice; `Comparison.ofCodes` starts from codes,
takes the first of two equal addresses and records every address without code as failed.
-/

namespace ContractSurvey

inductive ComparisonStatus where
  | compared
  /-- Fewer than two contracts. -/
  | notComparable
  deriving DecidableEq, Repr

namespace ComparisonStatus

def all : List ComparisonStatus := [.compared, .notComparable]

def label : ComparisonStatus → String
  | .compared => "compared"
  | .notComparable => "not_comparable"

def ofLabel? (s : String) : Option ComparisonStatus := all.find? (·.label = s)

end ComparisonStatus

structure Comparison where
  profiles : List Profile := []
  similarities : List Similarity := []
  relationships : List Relationship := []
  status : ComparisonStatus := .compared
  failed : List String := []
  network : Option String := none

namespace Comparison

def isComparable (c : Comparison) : Bool := c.status = .compared

/-- The pairs of a list, each element with all later ones. -/
def pairs {α : Type} : List α → List (α × α)
  | [] => []
  | a :: rest => rest.map (a, ·) ++ pairs rest

/-- The first profile whose address, up to letter case, is one of `seen` or that of an earlier
profile. -/
def firstRepeated? (seen : List String) : List Profile → Option Profile
  | [] => none
  | p :: rest =>
    let key := Text.lower p.address
    if key ∈ seen then some p else firstRepeated? (key :: seen) rest

/-- What is found about one pair. -/
def examine (threshold : Binary64) (a b : Profile) :
    Except SurveyError (Option Similarity × Option Relationship) := do
  let similarity ← Similarity.between a b
  return (similarity, Relationship.detect? threshold a b similarity)

/-- Whether the first similarity is listed no later than the second: the greater one comes first. -/
def listedBefore (s t : Similarity) : Bool := !decide (s.percent < t.percent)

/-- The comparison of some profiles.  The failed addresses and the network are only recorded. -/
def ofProfiles (threshold : Binary64) (profiles : List Profile) (failed : List String)
    (network : Option String) : Except SurveyError Comparison :=
  match firstRepeated? [] profiles with
  | some p => .error (.duplicateContract p.address)
  | none =>
    if profiles.length < 2 then .ok { profiles, status := .notComparable, failed, network }
    else do
      let found ← (pairs profiles).mapM fun (a, b) => examine threshold a b
      return {
        profiles
        similarities := (found.filterMap Prod.fst).mergeSort listedBefore
        relationships := found.filterMap Prod.snd
        failed
        network }

/-- A contract to compare: its address and, if it has one, its name. -/
structure Request where
  address : String
  name : Option String := none

/-- The first request of each address, up to letter case. -/
def firstOfEach (seen : List String) : List Request → List Request
  | [] => []
  | r :: rest =>
    let key := Text.lower r.address
    if key ∈ seen then firstOfEach seen rest else r :: firstOfEach (key :: seen) rest

/-- The codes by lower-case address, the last one of each. -/
def lowered (codes : Ledger String (Option String)) : Ledger String (Option String) :=
  Ledger.ofPairs (codes.map fun (address, code) => (Text.lower address, code))

/-- The profiles of the requests with code, and the failed addresses: those handed in, then every
other request without code. -/
def profilesOf (codes : Ledger String (Option String)) (failed : List String) :
    List Request → Except SurveyError (List Profile × List String)
  | [] => .ok ([], failed)
  | r :: rest =>
    let code := (codes.get? (Text.lower r.address)).join
    if Bytecode.isEmpty code then
      profilesOf codes (if r.address ∈ failed then failed else failed ++ [r.address]) rest
    else do
      let p ← Profile.ofCode r.address code r.name
      let (ps, failed) ← profilesOf codes failed rest
      return (p :: ps, failed)

/-- The comparison of the requested contracts by their codes. -/
def ofCodes (threshold : Binary64) (requests : List Request)
    (codes : Ledger String (Option String)) (failed : List String) (network : Option String) :
    Except SurveyError Comparison := do
  let (profiles, failed) ← profilesOf (lowered codes) failed (firstOfEach [] requests)
  ofProfiles threshold profiles failed network

/-- The whole comparison.  There is none where one of the profiles has no full form. -/
def toJson (c : Comparison) : Except QuantityError Json :=
  (c.profiles.mapM Profile.toJson).map fun profiles =>
    .object
      [("status", .text c.status.label),
       ("network", .ofText? c.network),
       ("contracts", .array profiles),
       ("similarities", .array (c.similarities.map (·.toJson))),
       ("relationships", .array (c.relationships.map (·.toJson))),
       ("failed_addresses", .ofTexts c.failed)]

end Comparison

end ContractSurvey
