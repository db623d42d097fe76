import ContractSurvey.Comparison.Basic

/-!
# Comparison — Insight

Parts and figures of a comparison: the similarities of some height, the first few of them, and
their average, highest and lowest value.
-/

namespace ContractSurvey

namespace Comparison

/-- Keeps the similarities of at least this height, and the relationships if they are wanted. -/
def restrict (c : Comparison) (least : Binary64) (withRelationships : Bool) : Comparison :=
  { c with
    similarities := c.similarities.filter fun s => least ≤ s.percent
    relationships := if withRelationships then c.relationships else [] }

/-- The first similarities, or all of them without a limit; a negative limit leaves that many off
the end. -/
def top (c : Comparison) (limit : Option Int) : List Similarity :=
  match limit with
  | some n => Sequence.upTo c.similarities n
  | none => c.similarities

end Comparison

/-- The figures of a comparison. -/
structure Insight where
  average : Binary64
  highest : Binary64
  lowest : Binary64
  proxies : Nat
  standards : Nat
  contracts : Nat
  relationships : Nat
  deriving DecidableEq

namespace Insight

/-- The average of some values, with two places. -/
def averageOf (xs : List Binary64) : Binary64 :=
  if xs.isEmpty then 0
  else (xs.foldl (· + ·) 0 / (xs.length : Binary64)).roundTo 2

/-- The value that no later one exceeds, by a comparison `exceeds`; with two places. -/
def extremeOf (exceeds : Binary64 → Binary64 → Bool) : List Binary64 → Binary64
  | [] => 0
  | x :: xs => (xs.foldl (fun best y => if exceeds y best then y else best) x).roundTo 2

def of (c : Comparison) : Insight :=
  let values := c.similarities.map (·.percent)
  { average := averageOf values
    highest := extremeOf (fun y best => best < y) values
    lowest := extremeOf (fun y best => y < best) values
    proxies := (c.profiles.filter (·.isProxy)).length
    standards := (Sequence.distinct (c.profiles.flatMap (·.standardNames))).length
    contracts := c.profiles.length
    relationships := c.relationships.length }

def toJson (i : Insight) : Json :=
  .object
    [("avg_similarity", .float i.average), ("max_similarity", .float i.highest),
     ("min_similarity", .float i.lowest), ("proxy_count", .int i.proxies),
     ("standards_count", .int i.standards), ("total_contracts", .int i.contracts),
     ("total_relationships", .int i.relationships)]

end Insight

end ContractSurvey
