import ContractSurvey.CommandLine.Display
import ContractSurvey.CommandLine.Request
import ContractSurvey.Node.Access
import ContractSurvey.Node.Fetcher

/-!
# CommandLine — Run

A command line carried out.  The outcome lists what is shown and written, in order; whoever carries
it out in the world stops at the first file that cannot be written, and the ending then does not
count.  The ending is an exit code, a refused command line, or an error that nothing handles.

The screen reads brackets in a text as markup and may refuse a text for that.  Nothing handles a
refusal, so that it ends the line where it is met, as a number without a text does.

A failed request ends an analysis with code 1; a comparison goes on with the contracts it has, and
ends with code 1 if those are fewer than two.
-/

namespace ContractSurvey.CommandLine

/-- An error that nothing handles. -/
inductive Failure where
  | unknownLevel (name : String)
  /-- A log level without a value. -/
  | voidLevel
  /-- A threshold without a value, where a similarity is held against it. -/
  | voidThreshold
  /-- A format without a value, where a report is written in it. -/
  | voidFormat
  | rate (e : RateError)
  | node (f : NodeFault)
  | chain (e : ChainError)
  | survey (e : SurveyError)
  /-- Something with a quantity that has no text. -/
  | quantity (e : QuantityError)
  /-- A text that the screen refuses, and what it says. -/
  | screen (message : String)
  | report (e : Report.Error)
  deriving DecidableEq, Repr

def Failure.message : Failure → String
  | .unknownLevel name => "Unknown level: " ++ Text.quoted name
  | .voidLevel => "'list' object has no attribute 'upper'"
  | .voidThreshold => "'<' not supported between instances of 'float' and 'list'"
  | .voidFormat => "[] is not a valid ExportFormat"
  | .rate e => e.message
  | .node f => f.message
  | .chain e => e.message
  | .survey e => e.message
  | .quantity e => e.message
  | .screen message => message
  | .report e => e.message

inductive Ending where
  | exit (code : Nat)
  | refused (r : Refusal)
  | failed (f : Failure)
  deriving DecidableEq, Repr

inductive Act where
  | print (shown : Shown)
  | write (path content : String)
  deriving DecidableEq, Repr

/-- What a command line comes to. -/
structure Outcome (σ : Type) where
  acts : List Act
  /-- The address of the node that was asked for, if one was. -/
  asked : Option Given
  line : Line σ Binary64
  ending : Ending

/-- What a command line is carried out in. -/
structure Surroundings (σ : Type) where
  settings : Settings
  platform : Platform
  nodeAt : Access → Node σ Binary64
  /-- The form of an address in which nodes are asked about it, or what is said of one that has
  none. -/
  checksum : String → Except String String
  /-- What is said of something that the screen refuses; nothing of what it takes. -/
  screen : Shown → Option String
  /-- The time that reports bear. -/
  now : Moment

variable {σ : Type}

/-- The fetcher for a node's address. -/
def fetcherAt (s : Surroundings σ) (url : Option String) :
    Except RateError (Fetcher σ Binary64) :=
  (Access.of s.settings url none none).map fun a =>
    { node := s.nodeAt a
      interval := a.interval
      defaultBlock := .tag s.settings.blockTag
      checksum := s.checksum }

/-! ### The screen -/

/-- Prints of what is shown, in order. -/
def prints (shown : List Shown) : List Act := shown.map .print

/-- Shows some things one after the other, up to the first that has no text or is refused. -/
def present (s : Surroundings σ) :
    List (Except QuantityError Shown) → List Act × Option Failure
  | [] => ([], none)
  | .error e :: _ => ([], some (.quantity e))
  | .ok x :: rest =>
    match s.screen x with
    | some message => ([], some (.screen message))
    | none =>
      let (acts, failure) := present s rest
      (.print x :: acts, failure)

/-- Shows some things and goes on behind the last. -/
def presentThen (s : Surroundings σ) (shown : List (Except QuantityError Shown))
    (next : List Act × Ending) : List Act × Ending :=
  match present s shown with
  | (acts, some f) => (acts, .failed f)
  | (acts, none) => (acts ++ next.1, next.2)

/-! ### A look at one contract -/

/-- What a failed request comes to: a bad request and a node that is not reached are shown, and
other faults of the node are not handled. -/
def fetchFailure : FetchError → List Shown × Ending
  | .node f =>
    if f.isValue then ([coloured "red" f.message], .exit 1)
    else if f.isTransport then ([coloured "red" ("RPC请求失败: " ++ f.message)], .exit 1)
    else ([], .failed (.node f))
  | e => ([coloured "red" e.message], .exit 1)

def analyze (s : Surroundings σ) (r : AnalyzeRequest) (l : Line σ Binary64) : Outcome σ :=
  match fetcherAt s r.url.text? with
  | .error e => ⟨[], some r.url, l, .failed (.rate e)⟩
  | .ok f =>
    let (code, l) := f.code r.address r.block l
    let (acts, ending) :=
      match code with
      | .error e => presentThen s (plainly (fetchFailure e).1) ([], (fetchFailure e).2)
      | .ok code =>
        match Profile.ofCode r.address (some code) r.name with
        | .error e => ([], .failed (.survey e))
        | .ok p => presentThen s (profileDisplay p) ([], .exit 0)
    ⟨acts, some r.url, l, ending⟩

def inspect (s : Surroundings σ) (r : InspectRequest) (l : Line σ Binary64) : Outcome σ :=
  let (acts, ending) :=
    match Profile.ofCode r.address r.code r.name with
    | .error e => presentThen s (plainly [coloured "red" e.message]) ([], .exit 1)
    | .ok p => presentThen s (profileDisplay p) ([], .exit 0)
  ⟨acts, none, l, ending⟩

/-! ### A comparison -/

/-- The name of the network: the one given, else the node's if any code was fetched.  A node that
is not reached is reported and leaves the network without a name. -/
def networkFor (f : Fetcher σ Binary64) (given : Option String) (batch : Batch)
    (l : Line σ Binary64) : Except ChainError (Option String × List Shown) × Line σ Binary64 :=
  if given.getD "" ≠ "" || batch.codes.isEmpty then (.ok (given, []), l)
  else
    match f.networkName l with
    | (.ok name, l) => (.ok (some name, []), l)
    | (.error e, l) =>
      if e.isTransport then (.ok (none, [coloured "yellow" ("无法识别网络: " ++ e.message)]), l)
      else (.error e, l)

/-- A line for every address that failed. -/
def failureLines (batch : Batch) : List Shown :=
  batch.failures.map fun (address, reason) => coloured "red" ("✗ " ++ address ++ ": " ++ reason)

/-- The comparison of what a batch fetched. -/
def comparisonOf (s : Settings) (r : CompareRequest) (batch : Batch) (network : Option String) :
    Except SurveyError Comparison :=
  Comparison.ofCodes s.alikeThreshold (r.addresses.map fun address => { address })
    (batch.codes.map fun (address, code) => (address, some code)) batch.failures.keys network

/-- The threshold of the families.  One without a value does not matter where there is no
similarity. -/
def thresholdFor (r : CompareRequest) (c : Comparison) : Except Failure Binary64 :=
  match r.familyThreshold with
  | some x => .ok x
  | none => if c.similarities.isEmpty then .ok 0 else .error .voidThreshold

/-- The report of a comparison, if a file is named for it, and how that ends. -/
def reportActs (s : Surroundings σ) (r : CompareRequest) (c : Comparison) : List Act × Ending :=
  match r.report, r.format with
  | none, _ | some "", _ => ([], .exit 0)
  | some _, none => ([], .failed .voidFormat)
  | some path, some format =>
    match Report.render s.platform format c s.now [] with
    | .error e => ([], .failed (.report e))
    | .ok text =>
      let (acts, ending) :=
        presentThen s (plainly [coloured "green" ("✓ 已导出: " ++ path)]) ([], .exit 0)
      (.write path text :: acts, ending)

/-- What is done about a comparison, and how that ends. -/
def comparisonActs (s : Surroundings σ) (r : CompareRequest) (c : Comparison) : List Act × Ending :=
  if c.isComparable then
    presentThen s (summaryDisplay c ++ plainly (pairDisplay c)) <|
      match thresholdFor r c with
      | .error f => ([], .failed f)
      | .ok threshold => presentThen s (plainly (groupDisplay c threshold)) (reportActs s r c)
  else presentThen s (plainly [coloured "red" "可用合约少于2个，无法比较"]) ([], .exit 1)

/-- What is done once the network is known, or is not. -/
def networkActs (s : Surroundings σ) (r : CompareRequest) (batch : Batch) :
    Except ChainError (Option String × List Shown) → List Act × Ending
  | .error e => ([], .failed (.chain e))
  | .ok (network, notes) =>
    presentThen s (plainly notes) <|
      match comparisonOf s.settings r batch network with
      | .error e => ([], .failed (.survey e))
      | .ok c => comparisonActs s r c

def compare (s : Surroundings σ) (r : CompareRequest) (l : Line σ Binary64) : Outcome σ :=
  match fetcherAt s r.url.text? with
  | .error e => ⟨[], some r.url, l, .failed (.rate e)⟩
  | .ok f =>
    let (batch, l) := f.codes r.addresses r.block l
    match present s (plainly (failureLines batch)) with
    | (acts, some e) => ⟨acts, some r.url, l, .failed e⟩
    | (acts, none) =>
      let (network, l) := networkFor f r.network batch l
      let (rest, ending) := networkActs s r batch network
      ⟨acts ++ rest, some r.url, l, ending⟩

/-! ### The whole line -/

/-- The levels that a log may have. -/
def logLevels : List String :=
  ["CRITICAL", "FATAL", "ERROR", "WARN", "WARNING", "INFO", "DEBUG", "NOTSET"]

def Request.run (s : Surroundings σ) (l : Line σ Binary64) : Request → Outcome σ
  | .analyze r => CommandLine.analyze s r l
  | .compare r => CommandLine.compare s r l
  | .inspect r => CommandLine.inspect s r l

/-- Carries out a command line. -/
def run (s : Surroundings σ) (args : List String) (l : Line σ Binary64) : Outcome σ :=
  match Invocation.parse s.platform s.settings args with
  | .error r => ⟨[], none, l, .refused r⟩
  | .ok ⟨none, _⟩ => ⟨[], none, l, .failed .voidLevel⟩
  | .ok ⟨some name, request⟩ =>
    let level := Text.upper name
    if level ∈ logLevels then request.run s l
    else ⟨[], none, l, .failed (.unknownLevel level)⟩

end ContractSurvey.CommandLine
