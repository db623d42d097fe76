import ContractSurvey.CommandLine.Run
import ContractSurvey.Report.Destination

/-!
# CommandLine — Trace

What is seen of a command line that is carried out in an empty folder: what is shown, the files
that are there afterwards, and the first file that cannot be written, behind which nothing is done.
`Trace.fault_eq_none_of_prints` says that only a file can stop it.
-/

namespace ContractSurvey.CommandLine

structure Trace where
  shown : List Shown := []
  files : Ledger String String := []
  /-- The path that cannot be written, and why. -/
  fault : Option (String × Report.PathFault) := none

namespace Trace

/-- The trace with something shown before. -/
def after (s : Shown) (t : Trace) : Trace := { t with shown := s :: t.shown }

/-- The trace with a file written before, unless a later one has its name. -/
def behind (d : Report.Destination) (content : String) (t : Trace) : Trace :=
  match d with
  | .outside => t
  | .inside name =>
    { t with files := if name ∈ t.files.keys then t.files else (name, content) :: t.files }

/-- The trace of some acts. -/
def ofActs : List Act → Trace
  | [] => {}
  | .print s :: rest => (ofActs rest).after s
  | .write path content :: rest =>
    match Report.Destination.ofPath path with
    | .error e => { fault := some (path, e) }
    | .ok d => (ofActs rest).behind d content

theorem fault_eq_none_of_prints (shown : List Shown) : (ofActs (prints shown)).fault = none := by
  induction shown with
  | nil => rfl
  | cons s rest ih => exact ih

end Trace

end ContractSurvey.CommandLine
