import ContractSurvey.Text.Quoted

/-!
# Report — Destination

Where a report goes when it is written from an empty folder: the path is a row of names between
slashes, and since there are no folders inside, only its last name may be one of its own.  Names of
one dot stand for the folder they are in; names of two dots lead out of it.
-/

namespace ContractSurvey.Report

/-- Why nothing can be written at a path. -/
inductive PathFault where
  /-- A zero character. -/
  | zero
  | tooLong
  | missingFolder
  | isFolder
  deriving DecidableEq, Repr

def PathFault.message (path : String) : PathFault → String
  | .zero => "embedded null byte"
  | .tooLong => "[Errno 36] File name too long: " ++ Text.quoted path
  | .missingFolder => "[Errno 2] No such file or directory: " ++ Text.quoted path
  | .isFolder => "[Errno 21] Is a directory: " ++ Text.quoted path

/-- A file that is written. -/
inductive Destination where
  | inside (name : String)
  /-- Somewhere else than in the folder. -/
  | outside
  deriving DecidableEq, Repr

/-- The names of a path, empty ones left out. -/
def pathNames (path : List Char) : List (List Char) := (path.splitOn '/').filter (!·.isEmpty)

/-- How many bytes a name takes. -/
def byteLength (name : List Char) : Nat := (String.ofList name).utf8ByteSize

/-- The most bytes of a name. -/
def nameLimit : Nat := 255

/-- The most bytes of a path. -/
def pathLimit : Nat := 4095

namespace Destination

/-- Follows the names of a path; `within` says whether they start in the folder, and
`asFolder` whether a slash stands behind the last. -/
def follow (within asFolder : Bool) : List (List Char) → Except PathFault Destination
  | [] => .error .isFolder
  | [name] =>
    if name = ['.'] || name = ['.', '.'] || asFolder then .error .isFolder
    else if nameLimit < byteLength name then .error .tooLong
    else .ok (if within then .inside (String.ofList name) else .outside)
  | name :: rest =>
    if name = ['.'] then follow within asFolder rest
    else if name = ['.', '.'] then follow false asFolder rest
    else if nameLimit < byteLength name then .error .tooLong
    else .error .missingFolder

def ofPath (path : String) : Except PathFault Destination :=
  let cs := path.toList
  if '\x00' ∈ cs then .error .zero
  else if pathLimit < path.utf8ByteSize then .error .tooLong
  else follow (cs.head? ≠ some '/') (cs.getLast? = some '/') (pathNames cs)

/-- A short name without slashes and dots is a file of the folder. -/
theorem follow_single {name : List Char} (h : name ≠ ['.'] ∧ name ≠ ['.', '.'])
    (hn : byteLength name ≤ nameLimit) :
    follow true false [name] = .ok (.inside (String.ofList name)) := by
  simp [follow, h, Nat.not_lt.2 hn]

end Destination

end ContractSurvey.Report
