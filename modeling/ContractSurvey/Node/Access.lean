import ContractSurvey.Number.Quotient
import ContractSurvey.Settings

/-!
# Node — Access

How a node is reached: its address in the network, how long to wait for it, and how often it is
asked.  What is not given, or given as nothing or zero, comes from the settings.  Without an
address the public nodes are tried in turn.
-/

namespace ContractSurvey

/-- A rate without an interval. -/
inductive RateError where
  /-- No questions at all. -/
  | zero
  /-- More questions than a double can count. -/
  | range (e : RangeError)
  deriving DecidableEq, Repr

def RateError.message : RateError → String
  | .zero => "float division by zero"
  | .range e => e.message

structure Access where
  url : Option String
  /-- How many seconds to wait. -/
  timeout : Quantity
  /-- The least number of seconds between two questions. -/
  interval : Binary64
  deriving DecidableEq

namespace Access

/-- The public node that stands in for all when none is reached. -/
def firstPublicNode : String := "https://eth.llamarpc.com"

/-- The public nodes, in the order in which they are tried. -/
def publicNodes : List String :=
  [firstPublicNode, "https://rpc.ankr.com/eth", "https://ethereum.publicnode.com",
   "https://1rpc.io/eth"]

/-- The first text that is given and not empty. -/
def firstGiven (url : Option String) (fallback : String) : Option String :=
  match url with
  | none | some "" => if fallback = "" then none else some fallback
  | some u => some u

/-- The time to wait for a node, unless none is given. -/
def timeoutFor (time : Option Quantity) (fallback : Int) : Quantity :=
  match time with
  | none => .whole fallback
  | some t => if t.isZero then .whole fallback else t

/-- A whole number of questions per second. -/
def wholeRate : Int → Except RateError Binary64
  | 0 => .error .zero
  | n => (Binary64.converted n).mapError .range

/-- The questions per second, unless none are given. -/
def rateFor (rate : Option Binary64) (fallback : Int) : Except RateError Binary64 :=
  match rate with
  | none => wholeRate fallback
  | some r => if r.isZero then wholeRate fallback else .ok r

/-- The way to a node for what is given. -/
def of (settings : Settings) (url : Option String) (requestsPerSecond : Option Binary64)
    (timeout : Option Quantity) : Except RateError Access :=
  (rateFor requestsPerSecond settings.requestsPerSecond).map fun rate =>
    { url := firstGiven url settings.nodeUrl
      timeout := timeoutFor timeout settings.timeoutSeconds
      interval := 1 / rate }

/-- The node in use, and those that were tried to find it. -/
def connect (a : Access) (reachable : String → Bool) : String × List String :=
  match a.url with
  | some u => (u, [])
  | none =>
    match publicNodes.find? reachable with
    | some u => (u, (publicNodes.takeWhile fun v => !reachable v) ++ [u])
    | none => (firstPublicNode, publicNodes)

theorem connect_of_url {a : Access} {u : String} (h : a.url = some u)
    (reachable : String → Bool) : a.connect reachable = (u, []) := by
  simp [connect, h]

end Access

end ContractSurvey
