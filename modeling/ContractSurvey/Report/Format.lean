import ContractSurvey.Platform
import ContractSurvey.Report.Markdown
import ContractSurvey.Report.Table

/-!
# Report — Format

The formats of a report and the names of its files.  A table bears no time, which
`Report.render_eq_of_not_isDated` says; the other formats do.
-/

namespace ContractSurvey

inductive ReportFormat where
  | json
  | csv
  | markdown
  deriving DecidableEq, Repr

namespace ReportFormat

def all : List ReportFormat := [.json, .csv, .markdown]

def label : ReportFormat → String
  | .json => "json"
  | .csv => "csv"
  | .markdown => "markdown"

def ofLabel? (s : String) : Option ReportFormat := all.find? (·.label = s)

/-- The ending of a file's name. -/
def extension : ReportFormat → String
  | .markdown => "md"
  | f => f.label

/-- Whether a report of this format bears the time at which it was made. -/
def isDated : ReportFormat → Bool
  | .csv => false
  | .json | .markdown => true

end ReportFormat

namespace Report

/-- The text of a report. -/
def render (platform : Platform) (format : ReportFormat) (c : Comparison) (now : Moment)
    (given : List (String × Json)) : Except Error String :=
  match format with
  | .json => json platform.room c now given
  | .csv => (table platform.quotesReturns c).mapError .quantity
  | .markdown => (markdown c now).mapError .quantity

theorem render_eq_of_not_isDated (platform : Platform) {format : ReportFormat}
    (h : format.isDated = false) (c : Comparison) (now later : Moment)
    (given : List (String × Json)) :
    render platform format c now given = render platform format c later given := by
  cases format with
  | csv => rfl
  | json => simp [ReportFormat.isDated] at h
  | markdown => simp [ReportFormat.isDated] at h

/-- The name of a file that was given none. -/
def defaultFileName (format : ReportFormat) (today : Date) : String :=
  "bytecode-analysis-" ++ today.dashed ++ "." ++ format.extension

/-- Whether a file gets its default name: no path is asked for, or an empty one. -/
def isUnnamed (asked : Option String) : Bool := asked.getD "" = ""

/-- The path asked for, or the default name. -/
def filePath (asked : Option String) (format : ReportFormat) (today : Date) : String :=
  if isUnnamed asked then defaultFileName format today else asked.getD ""

end Report

end ContractSurvey
