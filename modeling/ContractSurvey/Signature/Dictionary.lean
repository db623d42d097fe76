import ContractSurvey.Digest.Keccak
import ContractSurvey.Signature.Known
import ContractSurvey.Text.LetterCase

/-!
# Signature — Dictionary

The known functions in one list, each selector once: the first category that registers a selector
keeps it.  The place in the list ranks functions of equal confidence.
-/

namespace ContractSurvey

/-- A known function. -/
structure Signature where
  selector : Selector
  name : String
  category : Category
  standard : Option String
  deriving DecidableEq, Repr

namespace Signature

/-- The first signature of each selector. -/
def firstOfEach : List Signature → List Signature
  | [] => []
  | e :: es => e :: (firstOfEach es).filter (·.selector ≠ e.selector)

/-- All registrations, in order. -/
def registered : List Signature :=
  Category.all.flatMap fun c =>
    (functionsOf c).map fun (selector, name) => ⟨selector, name, c, c.standard?⟩

/-- The dictionary. -/
def dictionary : List Signature := firstOfEach registered

/-- The signature of a selector written exactly as in the dictionary. -/
def lookup? (s : Selector) : Option Signature := dictionary.find? (·.selector = s)

/-- The place of a selector in the dictionary, beyond the end if it is not there. -/
def rank (s : Selector) : Nat := dictionary.findIdx (·.selector = s)

/-- The signature of a selector in any letter case, with or without `0x`. -/
def find? (s : String) : Option Signature :=
  if s.isEmpty then none
  else
    let lower := Text.lower s
    lookup? (if "0x".toList.isPrefixOf lower.toList then lower else "0x" ++ lower)

/-- The name of a known function; an unknown selector stands for itself. -/
def nameOf (s : String) : String := ((find? s).map (·.name)).getD s

/-- The signatures of a category, in dictionary order. -/
def inCategory (c : Category) : List Signature := dictionary.filter (·.category = c)

/-- The selector of a signature: the first four bytes of its digest. -/
def selectorOf (signature : String) : Selector :=
  "0x" ++ String.ofList (Hex.ofBytes ((Keccak.digest signature.toUTF8.toList).take 4))

end Signature

end ContractSurvey
