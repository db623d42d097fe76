import ContractSurvey.Comparison.Similarity
import ContractSurvey.Number.Written

/-!
# Comparison — Relationship

What two contracts are to each other.  A proxy is thin: besides the functions of its kind it has at
most half as many functions as its implementation.  Failing that, contracts of high similarity are
alike.
-/

namespace ContractSurvey

inductive RelationshipKind where
  | proxyOf
  | alike
  deriving DecidableEq, Repr

namespace RelationshipKind

def all : List RelationshipKind := [.proxyOf, .alike]

def label : RelationshipKind → String
  | .proxyOf => "proxy-implementation"
  | .alike => "similar-implementation"

def ofLabel? (s : String) : Option RelationshipKind := all.find? (·.label = s)

end RelationshipKind

/-- A relationship between two addresses; a proxy comes first. -/
structure Relationship where
  first : String
  second : String
  kind : RelationshipKind
  description : String
  confidence : Binary64
  deriving DecidableEq

namespace Relationship

/-- The similarity above which two contracts are alike. -/
def defaultThreshold : Binary64 := 80

/-- The confidence in a proxy that was told by its shape. -/
def proxyConfidence : Binary64 := 0.95

/-- Whether the first contract looks like a proxy for the second. -/
def looksLikeProxy (proxy implementation : Profile) : Bool :=
  match proxy.proxyKind with
  | none | some .unknown => false
  | some _ =>
    proxy.functionCount < implementation.functionCount &&
      2 * (proxy.patterns.filter (·.category ≠ .proxy)).length ≤ implementation.functionCount

def ofProxy (proxy implementation : Profile) : Relationship :=
  { first := proxy.address
    second := implementation.address
    kind := .proxyOf
    description := proxy.title ++ " appears to be a proxy for " ++ implementation.title
    confidence := proxyConfidence }

/-- The relationship of two contracts, given their similarity. -/
def detect? (threshold : Binary64) (a b : Profile) (similarity : Option Similarity) :
    Option Relationship :=
  if looksLikeProxy a b then some (ofProxy a b)
  else if looksLikeProxy b a then some (ofProxy b a)
  else
    match similarity with
    | none => none
    | some s =>
      if threshold < s.percent then
        some
          { first := a.address
            second := b.address
            kind := .alike
            description := "Contracts share " ++ s.percent.text ++ "% function similarity"
            confidence := (s.percent / 100).roundTo 4 }
      else none

def toJson (r : Relationship) : Json :=
  .object
    [("type", .text r.kind.label), ("contracts", .ofTexts [r.first, r.second]),
     ("description", .text r.description), ("confidence", .float r.confidence)]

end Relationship

end ContractSurvey
