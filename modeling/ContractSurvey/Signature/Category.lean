import ContractSurvey.Bytecode.Selectors

/-!
# Signature — Category

The kinds of function that the dictionary knows.
-/

namespace ContractSurvey

inductive Category where
  | erc20
  | erc721
  | erc1155
  | proxy
  | security
  | deFi
  | gasOptimization
  deriving DecidableEq, Repr

namespace Category

/-- All categories, in the order in which they are registered: where two know one selector, the
earlier one has it. -/
def all : List Category := [.erc20, .erc721, .erc1155, .proxy, .security, .deFi, .gasOptimization]

theorem mem_all (c : Category) : c ∈ all := by cases c <;> simp [all]

def label : Category → String
  | .erc20 => "ERC20"
  | .erc721 => "ERC721"
  | .erc1155 => "ERC1155"
  | .proxy => "Proxy"
  | .security => "Security"
  | .deFi => "DeFi"
  | .gasOptimization => "Gas Optimization"

def ofLabel? (s : String) : Option Category := all.find? (·.label = s)

/-- The token standard whose functions a category holds. -/
def standard? : Category → Option String
  | .erc20 => some "ERC-20"
  | .erc721 => some "ERC-721"
  | .erc1155 => some "ERC-1155"
  | _ => none

theorem ofLabel?_label (c : Category) : ofLabel? c.label = some c := by cases c <;> rfl

end Category

end ContractSurvey
