/-!
# Csv

Records of fields, one record a line.  A field is quoted when it holds a comma, a quote or a line
feed, and quotes inside it are written twice.  Whether a carriage return asks for quotes as well is
left open: releases of the writer differ in that, and what is written can be read either way.  The
record of one empty field is quoted too, for a line without anything is the record without fields.
-/

namespace ContractSurvey.Csv

/-- A field in quotes. -/
def quoteField (cs : List Char) : List Char :=
  '"' :: cs.flatMap (fun c => if c = '"' then ['"', '"'] else [c]) ++ ['"']

/-- Whether a field is put in quotes; for a carriage return it is if `returns` says so. -/
def needsQuotes (returns : Bool) (cs : List Char) : Bool :=
  cs.any fun c => c = ',' || c = '"' || c = '\n' || (returns && c = '\r')

/-- A field as it stands in a record. -/
def field (returns : Bool) (cs : List Char) : List Char :=
  if needsQuotes returns cs then quoteField cs else cs

/-- Fields with commas between them. -/
def joined : List (List Char) → List Char
  | [] => []
  | [f] => f
  | f :: fs => f ++ ',' :: joined fs

/-- A record with its line end. -/
def record (returns : Bool) (fields : List (List Char)) : List Char :=
  match fields with
  | [[]] => ['"', '"', '\n']
  | fs => joined (fs.map (field returns)) ++ ['\n']

/-- The text of some records. -/
def print (returns : Bool) (records : List (List String)) : String :=
  String.ofList (records.flatMap fun fields => record returns (fields.map (·.toList)))

end ContractSurvey.Csv
