import ContractSurvey.Address.Checksum
import ContractSurvey.CommandLine.Run
import Std.Time

/-!
# Main

The program: reads the arguments, the environment and the time, and does what the command line
comes to.  It has no transport, so that every node counts as out of reach; codes that are handed in
are inspected in full.  Its screen takes every text as it stands.
-/

open ContractSurvey

/-- A node that is never reached. -/
def unreached (a : Access) : Node Unit Binary64 :=
  let fault : NodeFault := ⟨.connection, "no transport to " ++ (a.connect fun _ => false).1⟩
  { code := fun _ _ s => (⟨.error fault, 0⟩, s)
    chain := fun s => (⟨.error fault, 0⟩, s) }

/-- The variables that are set, in lower and in upper case. -/
def environment : IO Settings.Environment := do
  let mut env := []
  for name in Settings.names ++ Settings.names.map Text.upper do
    if let some value ← IO.getEnv name then env := env ++ [(name, value)]
  return env

def currentMoment : IO Moment := do
  let now ← Std.Time.PlainDateTime.now
  return {
    year := now.date.year.toInt.toNat
    month := now.date.month.val.toNat
    day := now.date.day.val.toNat
    hour := now.time.hour.val.toNat
    minute := now.time.minute.val.toNat
    second := now.time.second.val.toNat
    microsecond := now.time.nanosecond.val.toNat / 1000 }

/-- The rules of the present releases. -/
def present : Platform where
  quotesReturns := true
  keepsDashes := true
  room := 900

def perform : CommandLine.Act → IO Unit
  | .print shown => shown.lines.forM IO.println
  | .write path content => IO.FS.writeFile path content

/-- Says how it ended and gives the exit code. -/
def conclude : CommandLine.Ending → IO UInt32
  | .exit code => return code.toUInt32
  | .refused r => do
    unless r.text.isEmpty do IO.eprintln r.text
    return r.exitCode.toUInt32
  | .failed f => do
    IO.eprintln f.message
    return 1

def main (args : List String) : IO UInt32 := do
  match Settings.ofEnvironment (← environment) with
  | .error faults =>
    for (name, fault) in faults do IO.eprintln (name ++ ": " ++ fault.label)
    return 1
  | .ok settings =>
    let now ← currentMoment
    let surroundings : CommandLine.Surroundings Unit :=
      { settings, platform := present, nodeAt := unreached, checksum := Address.checksumText,
        screen := fun _ => none, now }
    let outcome := CommandLine.run surroundings args
      { clock := Binary64.ofRatio (← IO.monoMsNow) 1000, lastQuestion := 0, node := () }
    outcome.acts.forM perform
    conclude outcome.ending
