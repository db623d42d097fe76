import ContractSurvey.Address.Short
import ContractSurvey.Bytecode.Sweep
import ContractSurvey.Bytecode.Trailer
import ContractSurvey.Error
import ContractSurvey.Profile.Complexity
import ContractSurvey.Profile.Feature
import ContractSurvey.Profile.Standard

/-!
# Profile

What is known of one contract: its size and hash, the functions recognised in its code, and the
features that follow from them.  `Profile.ofCode` makes the profile from an address and the code
there; the only code it refuses is an empty one.  A profile may also be put together by hand, and
then a name, a hash or a quantity may be missing.
-/

namespace ContractSurvey

structure Profile where
  address : String
  name : Option String
  /-- In bytes.  Sizes also come from outside, so nothing keeps them from being negative. -/
  size : Option Quantity := some (.whole 0)
  codeHash : Option String := some ""
  /-- How many candidates the scans found, known or not. -/
  candidates : Option Quantity := some (.whole 0)
  patterns : List Pattern := []
  standards : List Compliance := []
  security : List String := []
  proxyKind : Option ProxyKind := none
  complexity : Option Quantity := some (.whole 0)
  gas : List String := []
  opcodeFlags : List String := []
  trailer : Option Trailer := none

namespace Profile

/-- The different selectors of the recognised functions. -/
def selectors (p : Profile) : List Selector := Sequence.distinct (p.patterns.map (·.selector))

/-- The number of recognised functions. -/
def functionCount (p : Profile) : Nat := p.patterns.length

/-- The names of the standards followed. -/
def standardNames (p : Profile) : List String := p.standards.map (·.standard)

def isProxy (p : Profile) : Bool := p.proxyKind.isSome

/-- The name as texts have it. -/
def title (p : Profile) : String := p.name.getD "None"

/-- The level of the score, if there is one. -/
def level? (p : Profile) : Option ComplexityLevel := p.complexity.map ComplexityLevel.ofScore

/-- The level of the score, which must not be missing. -/
def level (p : Profile) : Except QuantityError ComplexityLevel :=
  (Quantity.stated p.complexity).map ComplexityLevel.ofScore

/-- The level as texts have it. -/
def levelTitle (p : Profile) : String := (p.level?.map (·.label)).getD "None"

/-- The recognised functions of a category. -/
def patternsIn (p : Profile) (c : Category) : List Pattern := p.patterns.filter (·.category = c)

/-- The name of a contract that is asked about: without one, or with an empty one, it is named after
its address. -/
def contractName (address : String) (name : Option String) : String :=
  if name.getD "" = "" then Address.contractName (some address) else name.getD ""

/-- The profile of the code at an address. -/
def ofCode (address : String) (code : Option String) (name : Option String) :
    Except SurveyError Profile :=
  if Bytecode.isEmpty code then .error (.emptyCode address)
  else
    let selectors := Bytecode.selectors code
    let patterns := Pattern.classify selectors code
    let size := Bytecode.size code
    .ok
      { address
        name := some (contractName address name)
        size := some (.whole size)
        codeHash := some (Bytecode.hash code)
        candidates := some (.whole selectors.length)
        patterns
        standards := TokenStandard.followed patterns
        security := Feature.security patterns
        proxyKind := Feature.proxyKind? patterns
        complexity := some (.whole (Complexity.score (Binary64.ofInt size) patterns))
        gas := Feature.gas patterns code
        opcodeFlags := Bytecode.opcodeFlags code
        trailer := Bytecode.trailer? code }

end Profile

end ContractSurvey
