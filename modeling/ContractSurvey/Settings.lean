import ContractSurvey.Comparison.Family
import ContractSurvey.Settings.Value
import ContractSurvey.Settings.Variable

/-!
# Settings

What the environment may change.  A variable is found under its name in any letter case, the last
one of several, and variables of other names do not matter.  All settings whose values are not
understood are named together, in the order of their names.
-/

namespace ContractSurvey

structure Settings where
  /-- Empty for the public nodes. -/
  nodeUrl : String := ""
  timeoutSeconds : Int := 10
  requestsPerSecond : Int := 10
  /-- The block that is asked about if none is named. -/
  blockTag : String := "latest"
  /-- The similarity from which two contracts are of one family. -/
  familyThreshold : Binary64 := Comparison.familyThreshold
  /-- The similarity above which two contracts are alike. -/
  alikeThreshold : Binary64 := Relationship.defaultThreshold
  logLevel : String := "INFO"
  deriving DecidableEq

namespace Settings

/-- The variables that matter. -/
def names : List String :=
  ["eth_rpc_url", "rpc_timeout_seconds", "rpc_requests_per_second", "default_block_tag",
   "similarity_threshold", "similar_relationship_threshold", "log_level"]

/-- The value of a variable, its name given in lower case. -/
def valueOf? (env : Environment) (name : String) : Option String :=
  (env.reverse.find? fun v => Text.lower v.1 = name).map Prod.snd

/-- A variable that holds a text. -/
def text (env : Environment) (name default : String) : String :=
  (valueOf? env name).getD default

/-- The value of a variable as a reader takes it. -/
def read {α : Type} (reader : String → Except SettingFault α) (env : Environment) (name : String)
    (default : α) : Except SettingFault α :=
  match valueOf? env name with
  | none => .ok default
  | some s => reader s

/-- The fault of a setting under the setting's name. -/
def faultOf {α : Type} (name : String) : Except SettingFault α → List (String × SettingFault)
  | .ok _ => []
  | .error e => [(name, e)]

/-- The settings in an environment, or everything that is wrong with them. -/
def ofEnvironment (env : Environment) : Except (List (String × SettingFault)) Settings :=
  let base : Settings := {}
  let rate := read wholeValue env "rpc_requests_per_second" base.requestsPerSecond
  let timeout := read wholeValue env "rpc_timeout_seconds" base.timeoutSeconds
  let alike := read percentValue env "similar_relationship_threshold" base.alikeThreshold
  let family := read percentValue env "similarity_threshold" base.familyThreshold
  match rate, timeout, alike, family with
  | .ok requestsPerSecond, .ok timeoutSeconds, .ok alikeThreshold, .ok familyThreshold =>
    .ok
      { nodeUrl := text env "eth_rpc_url" base.nodeUrl
        timeoutSeconds
        requestsPerSecond
        blockTag := text env "default_block_tag" base.blockTag
        familyThreshold
        alikeThreshold
        logLevel := text env "log_level" base.logLevel }
  | _, _, _, _ =>
    .error
      (faultOf "rpc_requests_per_second" rate ++ faultOf "rpc_timeout_seconds" timeout ++
        faultOf "similar_relationship_threshold" alike ++ faultOf "similarity_threshold" family)

def toJson (s : Settings) : Json :=
  .object
    [("eth_rpc_url", .text s.nodeUrl), ("rpc_timeout_seconds", .int s.timeoutSeconds),
     ("rpc_requests_per_second", .int s.requestsPerSecond),
     ("default_block_tag", .text s.blockTag),
     ("similarity_threshold", .float s.familyThreshold),
     ("similar_relationship_threshold", .float s.alikeThreshold),
     ("log_level", .text s.logLevel)]

theorem ofEnvironment_nil : ofEnvironment [] = .ok {} := rfl

end Settings

end ContractSurvey
