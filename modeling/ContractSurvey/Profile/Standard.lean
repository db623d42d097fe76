import ContractSurvey.Profile.Pattern

/-!
# Profile — Standard

How far a contract follows a token standard: the share of the required functions it has, those it
lacks, and the optional ones it has.
-/

namespace ContractSurvey

/-- A token standard by its functions. -/
structure TokenStandard where
  name : String
  required : List Selector
  optional : List Selector

/-- How far one standard is followed. -/
structure Compliance where
  standard : String
  percent : Option Quantity
  missing : List String
  extra : List String
  deriving DecidableEq, Repr

namespace TokenStandard

def erc20 : TokenStandard where
  name := "ERC20"
  required := ["0x70a08231", "0xa9059cbb", "0x23b872dd", "0x095ea7b3", "0xdd62ed3e", "0x18160ddd"]
  optional := ["0x06fdde03", "0x95d89b41", "0x313ce567"]

def erc721 : TokenStandard where
  name := "ERC721"
  required := ["0x70a08231", "0x6352211e", "0x23b872dd", "0x42842e0e", "0xa22cb465"]
  optional := ["0xc87b56dd", "0x01ffc9a7"]

def erc1155 : TokenStandard where
  name := "ERC1155"
  required := ["0x00fdd58e", "0x4e1273f4", "0xf242432a", "0x2eb2c2d6", "0xa22cb465"]
  optional := ["0x0e89341c", "0x01ffc9a7"]

def all : List TokenStandard := [erc20, erc721, erc1155]

/-- The share of `total` as a whole percentage, between nothing and all. -/
def wholePercent (found total : Nat) : Nat :=
  let x : Binary64 := (found : Binary64) / (total : Binary64) * 100
  (max 0 (min 100 (x.round?.getD 0))).toNat

/-- How far the functions found follow the standard; nothing if they have no required one. -/
def compliance? (s : TokenStandard) (found : List Selector) : Option Compliance :=
  let percent := wholePercent (s.required.filter (· ∈ found)).length s.required.length
  if percent = 0 then none
  else
    some
      { standard := s.name
        percent := some (.whole percent)
        missing := (s.required.filter (· ∉ found)).map Signature.nameOf
        extra := (s.optional.filter (· ∈ found)).map Signature.nameOf }

/-- The standards that the patterns follow in part or in full. -/
def followed (patterns : List Pattern) : List Compliance :=
  all.filterMap (·.compliance? (patterns.map (·.selector)))

end TokenStandard

namespace Compliance

def toJson (c : Compliance) : Json :=
  .object [("standard", .text c.standard), ("compliance", .ofQuantity? c.percent),
    ("missing_functions", .ofTexts c.missing), ("extra_functions", .ofTexts c.extra)]

end Compliance

end ContractSurvey
