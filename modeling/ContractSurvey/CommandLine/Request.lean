import ContractSurvey.CommandLine.Grammar
import ContractSurvey.Node.Block
import ContractSurvey.Report.Format
import ContractSurvey.Settings

/-!
# CommandLine — Request

The three things that can be asked for, and the grammar of each: a look at the code at an address,
a comparison of several addresses, and a look at a code that is handed in.  A command line is a log
level, the word for what is asked, and the arguments of that.
-/

namespace ContractSurvey.CommandLine

/-- What a command line says of a text. -/
inductive Given where
  | absent
  /-- It is asked for without a value. -/
  | void
  | text (s : String)
  deriving DecidableEq, Repr

namespace Given

def ofValue : Option String → Given
  | some s => .text s
  | none => .void

def text? : Given → Option String
  | .text s => some s
  | _ => none

end Given

/-- A look at the code at an address. -/
structure AnalyzeRequest where
  address : String := ""
  name : Option String := none
  url : Given := .absent
  block : Option Block := none
  deriving DecidableEq, Repr

/-- A comparison of the codes at some addresses. -/
structure CompareRequest where
  addresses : List String := []
  /-- Nothing if it is given without a value. -/
  familyThreshold : Option Binary64
  /-- The file to write a report to. -/
  report : Option String := none
  /-- Nothing if it is given without a value. -/
  format : Option ReportFormat := some .json
  network : Option String := none
  url : Given := .absent
  block : Option Block := none
  deriving DecidableEq, Repr

/-- A look at a code that is handed in.  One given without a value is empty, and an address given
without a value is shown as an empty list. -/
structure InspectRequest where
  code : Option String := none
  address : String := "0x" ++ String.ofList (List.replicate 40 '0')
  name : Option String := none
  deriving DecidableEq, Repr

inductive Request where
  | analyze (r : AnalyzeRequest)
  | compare (r : CompareRequest)
  | inspect (r : InspectRequest)
  deriving DecidableEq, Repr

/-- A request with the level of its log, if that is not given without a value. -/
structure Invocation where
  logLevel : Option String
  request : Request
  deriving DecidableEq, Repr

/-- The name of the program. -/
def programName : String := "bytescope"

/-! ### Options -/

variable {α : Type}

/-- An option that takes any text. -/
def textOption (name : String) (set : Option String → α → α) : ValueOption α :=
  ⟨name, fun s a => .ok (set s a)⟩

/-- An option whose value a reader takes or says what is wrong with it. -/
def readOption {ν : Type} (name : String) (read : String → Except String ν)
    (set : Option ν → α → α) : ValueOption α :=
  ⟨name, fun
    | none, a => .ok (set none a)
    | some s, a => (read s).map fun v => set (some v) a⟩

/-- What is said of a value that is not of the kind asked for. -/
def invalidValue (kind value : String) : String :=
  "invalid " ++ kind ++ " value: " ++ Text.quoted value

def thresholdOption (set : Option Binary64 → α → α) : ValueOption α :=
  readOption "--threshold"
    (fun s => (Binary64.ofText? s).elim (.error (invalidValue "float" s)) .ok) set

def blockOption (set : Option Block → α → α) : ValueOption α :=
  readOption "--block"
    (fun s => (Block.ofText s).mapError fun _ => invalidValue "block_identifier" s) set

/-- What is said of a word outside a list of choices. -/
def invalidChoice (word : String) (choices : List String) : String :=
  "invalid choice: " ++ Text.quoted word ++ " (choose from " ++
    ", ".intercalate (choices.map Text.quoted) ++ ")"

def formatOption (set : Option ReportFormat → α → α) : ValueOption α :=
  readOption "--format"
    (fun s =>
      (ReportFormat.ofLabel? s).elim
        (.error (invalidChoice s (ReportFormat.all.map (·.label)))) .ok)
    set

/-! ### The levels -/

def analyzeGrammar (platform : Platform) : Grammar AnalyzeRequest AnalyzeRequest where
  program := programName ++ " analyze"
  options :=
    [textOption "--name" fun s r => { r with name := s },
     textOption "--rpc" fun s r => { r with url := .ofValue s },
     blockOption fun b r => { r with block := b }]
  operands := .one
  start := {}
  required := "address"
  finish r operands := operands.head?.map fun address => { r with address }
  keepsDashes := platform.keepsDashes

def compareGrammar (platform : Platform) (settings : Settings) :
    Grammar CompareRequest CompareRequest where
  program := programName ++ " compare"
  options :=
    [thresholdOption fun x r => { r with familyThreshold := x },
     textOption "--export" fun s r => { r with report := s },
     formatOption fun f r => { r with format := f },
     textOption "--network" fun s r => { r with network := s },
     textOption "--rpc" fun s r => { r with url := .ofValue s },
     blockOption fun b r => { r with block := b }]
  operands := .many
  start := { familyThreshold := some settings.familyThreshold }
  required := "ADDRESS"
  finish r operands := if operands.isEmpty then none else some { r with addresses := operands }
  keepsDashes := platform.keepsDashes

def inspectGrammar (platform : Platform) : Grammar InspectRequest InspectRequest where
  program := programName ++ " inspect"
  options :=
    [textOption "--bytecode" fun s r => { r with code := some (s.getD "") },
     textOption "--address" fun s r => { r with address := s.getD "[]" },
     textOption "--name" fun s r => { r with name := s }]
  operands := .none
  start := {}
  required := "--bytecode"
  finish r _ := if r.code.isSome then some r else none
  keepsDashes := platform.keepsDashes

/-- The first level: the log level, and the rest as it stands. -/
def outerGrammar (platform : Platform) (settings : Settings) :
    Grammar (Option String) (Option String × List String) where
  program := programName
  options := [textOption "--log-level" fun s _ => s]
  operands := .rest
  start := some settings.logLevel
  required := "command"
  finish level operands := if operands.isEmpty then none else some (level, operands)
  keepsDashes := platform.keepsDashes

/-! ### The whole line -/

/-- The words for what can be asked. -/
def commandWords : List String := ["analyze", "compare", "inspect"]

/-- What a command word and its arguments ask for, and the words that were not understood. -/
def Request.parse (platform : Platform) (settings : Settings) (word : String)
    (args : List String) : Except Refusal (Request × List String) :=
  if word = "analyze" then
    ((analyzeGrammar platform).parse args).map fun (r, extras) => (.analyze r, extras)
  else if word = "compare" then
    ((compareGrammar platform settings).parse args).map fun (r, extras) => (.compare r, extras)
  else if word = "inspect" then
    ((inspectGrammar platform).parse args).map fun (r, extras) => (.inspect r, extras)
  else
    .error ((outerGrammar platform settings).argumentRefusal "command"
      (invalidChoice word commandWords))

/-- What a command line asks for. -/
def Invocation.parse (platform : Platform) (settings : Settings) (args : List String) :
    Except Refusal Invocation := do
  let ((logLevel, operands), outer) ← (outerGrammar platform settings).parse args
  let (request, inner) ←
    Request.parse platform settings (operands.headD "") operands.tail
  if (outer ++ inner).isEmpty then return { logLevel, request }
  else
    .error ((outerGrammar platform settings).refusal
      ("unrecognized arguments: " ++ " ".intercalate (outer ++ inner)))

end ContractSurvey.CommandLine
