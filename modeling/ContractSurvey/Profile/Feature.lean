import ContractSurvey.Profile.Pattern

/-!
# Profile — Feature

Features read off the names of the recognised functions and, for the habits that save gas, off the
text of the code.
-/

namespace ContractSurvey

/-- The kinds of proxy. -/
inductive ProxyKind where
  | transparent
  | uups
  | beacon
  | diamond
  | unknown
  deriving DecidableEq, Repr

namespace ProxyKind

def all : List ProxyKind := [.transparent, .uups, .beacon, .diamond, .unknown]

theorem mem_all (k : ProxyKind) : k ∈ all := by cases k <;> simp [all]

def label : ProxyKind → String
  | .transparent => "Transparent Proxy (EIP-1967)"
  | .uups => "UUPS Proxy (EIP-1822)"
  | .beacon => "Beacon Proxy"
  | .diamond => "Diamond Proxy (EIP-2535)"
  | .unknown => "Unknown Proxy Pattern"

def ofLabel? (s : String) : Option ProxyKind := all.find? (·.label = s)

/-- The words in a proxy's function names that give its kind away, the most telling first. -/
def marks : List (String × ProxyKind) :=
  [("facet", .diamond), ("proxiableUUID", .uups), ("beacon", .beacon),
   ("implementation", .transparent)]

end ProxyKind

namespace Feature

/-- Whether some pattern's name holds the word. -/
def anyNamed (word : String) (patterns : List Pattern) : Bool :=
  patterns.any fun p => Text.contains p.name word

/-- The words in the names of security functions and the features they stand for. -/
def securityMarks : List (String × String) :=
  [("owner", "Ownable"), ("pause", "Pausable"), ("Role", "Access Control"),
   ("nonReentrant", "Reentrancy Guard")]

/-- The security features of the patterns in the category of security. -/
def security (patterns : List Pattern) : List String :=
  let own := patterns.filter (·.category = .security)
  (securityMarks.filter fun mark => anyNamed mark.1 own).map Prod.snd

/-- The kind of proxy, if any function of a proxy was recognised. -/
def proxyKind? (patterns : List Pattern) : Option ProxyKind :=
  let own := patterns.filter (·.category = .proxy)
  if own.isEmpty then none
  else some (((ProxyKind.marks.find? fun mark => anyNamed mark.1 own).map Prod.snd).getD .unknown)

/-- Habits that save gas. -/
def gas (patterns : List Pattern) (code : Option String) : List String :=
  let cs := Bytecode.text code
  let holds (word : String) : Bool := Text.occursIn word.toList cs
  let rules : List (Bool × String) :=
    [(holds "3d3d3d3d" || holds "5afa", "Assembly Optimizations"),
     (anyNamed "batch" patterns || anyNamed "multi" patterns, "Batch Operations"),
     (holds "60" && holds "52", "Packed Storage"),
     (holds "f5", "CREATE2 Deployment")]
  (rules.filter Prod.fst).map Prod.snd

end Feature

end ContractSurvey
