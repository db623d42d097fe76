import ContractSurvey.Csv
import Mathlib.Data.List.Basic

/-!
# Proofs — Csv — Reader

Records are read back from their text.  The reader goes through the text character by character and
knows of a field only whether it stands in quotes: a comma outside quotes ends a field, a line feed
outside quotes ends a record, and two quotes inside quotes are one.  It refuses what no record is
written as: a quote inside a field that did not start with one, anything between a closing quote and
the end of its field, a text that breaks off inside a record.

A carriage return is a character like any other, in quotes or without them, so that it does not
matter which of the two rules for it the text was written by.

`reads_field` follows it through one field and `reads_record` through one record; the main statement
is `read_print`.
-/

namespace ContractSurvey.Csv

/-- Where a reader stands in a field. -/
inductive Place where
  | start
  /-- In a field without quotes. -/
  | bare
  | quoted
  /-- Behind a quote inside quotes, which closes the field unless a second one follows. -/
  | closed
  deriving DecidableEq, Repr

/-- The records read so far, the fields read of the next record, and the characters read of the
next field. -/
structure Reader where
  records : List (List (List Char)) := []
  before : List (List Char) := []
  pending : List Char := []
  place : Place := .start
  deriving DecidableEq, Repr

namespace Reader

def push (c : Char) (place : Place) (r : Reader) : Reader :=
  { r with pending := r.pending ++ [c], place }

def endField (r : Reader) : Reader :=
  { r with before := r.before ++ [r.pending], pending := [], place := .start }

/-- Whether nothing has been read of the next record. -/
def isBetween (r : Reader) : Bool := r.before.isEmpty && r.place = .start

/-- Ends a record with the field that is being read; a line without anything has no field. -/
def endRecord (r : Reader) : Reader :=
  { records := r.records ++ [if r.isBetween then [] else r.before ++ [r.pending]] }

/-- Reads one character. -/
def step (r : Reader) (c : Char) : Option Reader :=
  match r.place with
  | .quoted => if c = '"' then some { r with place := .closed } else some (r.push c .quoted)
  | place =>
    if c = ',' then some r.endField
    else if c = '\n' then some r.endRecord
    else
      match place with
      | .start => if c = '"' then some { r with place := .quoted } else some (r.push c .bare)
      | .bare => if c = '"' then none else some (r.push c .bare)
      | _ => if c = '"' then some (r.push c .quoted) else none

end Reader

/-- The records that a text writes. -/
def read (text : String) : Option (List (List String)) :=
  (text.toList.foldlM Reader.step {}).bind fun r =>
    if r.isBetween then some (r.records.map fun fields => fields.map String.ofList) else none

namespace Reader

/-- The reader gets from one state to another by these characters. -/
def Reads (r : Reader) (cs : List Char) (r' : Reader) : Prop := cs.foldlM step r = some r'

theorem Reads.nil (r : Reader) : Reads r [] r := rfl

theorem Reads.cons {r r' r'' : Reader} {c : Char} {cs : List Char} (h : step r c = some r')
    (h' : Reads r' cs r'') : Reads r (c :: cs) r'' := by
  rw [Reads, List.foldlM_cons, h]
  exact h'

theorem Reads.append {r r' r'' : Reader} {cs ds : List Char} (h : Reads r cs r')
    (h' : Reads r' ds r'') : Reads r (cs ++ ds) r'' := by
  rw [Reads, List.foldlM_append, h]
  exact h'

variable {rs : List (List (List Char))} {fs : List (List Char)} {returns : Bool}

/-! ### A field -/

/-- A field that is not quoted, whatever the rule for a carriage return, holds no structure. -/
theorem needsQuotes_cons_eq_false {c : Char} {cs : List Char}
    (h : needsQuotes returns (c :: cs) = false) :
    (c ≠ ',' ∧ c ≠ '"' ∧ c ≠ '\n') ∧ needsQuotes returns cs = false := by
  simp only [needsQuotes, List.any_cons, Bool.or_eq_false_iff, decide_eq_false_iff_not] at h
  obtain ⟨⟨⟨⟨hcomma, hquote⟩, hline⟩, -⟩, hcs⟩ := h
  exact ⟨⟨hcomma, hquote, hline⟩, hcs⟩

theorem reads_bare {cs : List Char} (h : needsQuotes returns cs = false) (f : List Char) :
    Reads ⟨rs, fs, f, .bare⟩ cs ⟨rs, fs, f ++ cs, .bare⟩ := by
  induction cs generalizing f with
  | nil => rw [List.append_nil]; exact .nil _
  | cons c cs ih =>
      obtain ⟨⟨hcomma, hquote, hline⟩, hcs⟩ := needsQuotes_cons_eq_false h
      rw [← List.singleton_append, ← List.append_assoc]
      exact .cons (by simp [step, push, hcomma, hquote, hline]) (ih hcs _)

/-- Inside quotes every character is one of the field, a quote being written twice. -/
theorem reads_quoted (cs f : List Char) :
    Reads ⟨rs, fs, f, .quoted⟩ (cs.flatMap fun c => if c = '"' then ['"', '"'] else [c])
      ⟨rs, fs, f ++ cs, .quoted⟩ := by
  induction cs generalizing f with
  | nil => rw [List.append_nil]; exact .nil _
  | cons c cs ih =>
      have hc : Reads ⟨rs, fs, f, .quoted⟩ (if c = '"' then ['"', '"'] else [c])
          ⟨rs, fs, f ++ [c], .quoted⟩ := by
        by_cases hc : c = '"'
        · subst hc
          rfl
        · rw [if_neg hc]
          exact .cons (if_neg hc) (.nil _)
      have hcs := hc.append (ih (f ++ [c]))
      rwa [List.append_assoc] at hcs

/-- Behind a written field the reader has the field, and stands where it can end. -/
theorem reads_field (returns : Bool) (rs : List (List (List Char))) (fs : List (List Char))
    (cs : List Char) :
    ∃ place, Reads ⟨rs, fs, [], .start⟩ (field returns cs) ⟨rs, fs, cs, place⟩ ∧
      place ≠ .quoted ∧ (place = .start → cs = []) := by
  rw [field]
  split
  · have hopen : step ⟨rs, fs, [], .start⟩ '"' = some ⟨rs, fs, [], .quoted⟩ := rfl
    have hclose : step ⟨rs, fs, cs, .quoted⟩ '"' = some ⟨rs, fs, cs, .closed⟩ := rfl
    exact ⟨.closed, .cons hopen ((reads_quoted cs []).append (.cons hclose (.nil _))), by simp,
      by simp⟩
  · next h =>
      cases cs with
      | nil => exact ⟨.start, .nil _, by simp, fun _ => rfl⟩
      | cons c cs =>
          obtain ⟨⟨hcomma, hquote, hline⟩, hcs⟩ :=
            needsQuotes_cons_eq_false (Bool.eq_false_iff.mpr h)
          have hstep : step ⟨rs, fs, [], .start⟩ c = some ⟨rs, fs, [c], .bare⟩ := by
            simp [step, push, hcomma, hquote, hline]
          exact ⟨.bare, .cons hstep (reads_bare hcs [c]), by simp, by simp⟩

theorem step_comma {place : Place} (h : place ≠ .quoted) (f : List Char) :
    step ⟨rs, fs, f, place⟩ ',' = some ⟨rs, fs ++ [f], [], .start⟩ := by
  cases place with
  | quoted => exact absurd rfl h
  | start | bare | closed => rfl

theorem step_line {place : Place} (h : place ≠ .quoted) {f : List Char}
    (hne : fs ≠ [] ∨ place ≠ .start) :
    step ⟨rs, fs, f, place⟩ '\n' = some ⟨rs ++ [fs ++ [f]], [], [], .start⟩ := by
  have hbetween : isBetween ⟨rs, fs, f, place⟩ = false := by
    simpa [isBetween, ← not_or, imp_iff_not_or] using hne
  have hend : endRecord ⟨rs, fs, f, place⟩ = ⟨rs ++ [fs ++ [f]], [], [], .start⟩ := by
    simp [endRecord, hbetween]
  rw [← hend]
  cases place with
  | quoted => exact absurd rfl h
  | start | bare | closed => rfl

/-! ### A record -/

/-- The last fields of a record and its line end, behind at least one field. -/
theorem reads_joined (returns : Bool) (cs : List Char) (fields : List (List Char))
    (hfs : fs ≠ []) :
    Reads ⟨rs, fs, [], .start⟩ (joined ((cs :: fields).map (field returns)) ++ ['\n'])
      ⟨rs ++ [fs ++ cs :: fields], [], [], .start⟩ := by
  induction fields generalizing cs fs with
  | nil =>
      obtain ⟨place, hreads, hplace, -⟩ := reads_field returns rs fs cs
      exact hreads.append (.cons (step_line hplace (.inl hfs)) (.nil _))
  | cons ds fields ih =>
      obtain ⟨place, hreads, hplace, -⟩ := reads_field returns rs fs cs
      have hrest := hreads.append (.cons (step_comma hplace cs) (ih ds (by simp)))
      simpa [joined] using hrest

/-- A record is read as its fields. -/
theorem reads_record (returns : Bool) (rs : List (List (List Char)))
    (fields : List (List Char)) :
    Reads ⟨rs, [], [], .start⟩ (record returns fields) ⟨rs ++ [fields], [], [], .start⟩ := by
  match fields with
  | [] => rfl
  | [[]] => rfl
  | [c :: cs] =>
      obtain ⟨place, hreads, hplace, hstart⟩ := reads_field returns rs [] (c :: cs)
      have hbehind : place ≠ .start := fun h => List.cons_ne_nil _ _ (hstart h)
      exact hreads.append (.cons (step_line hplace (.inr hbehind)) (.nil _))
  | cs :: ds :: fields =>
      obtain ⟨place, hreads, hplace, -⟩ := reads_field returns rs [] cs
      have hrest := hreads.append (.cons (step_comma hplace cs)
        (reads_joined returns ds fields (by simp)))
      simpa [record, joined] using hrest

theorem reads_records (returns : Bool) (rs records : List (List (List Char))) :
    Reads ⟨rs, [], [], .start⟩ (records.flatMap (record returns))
      ⟨rs ++ records, [], [], .start⟩ := by
  induction records generalizing rs with
  | nil => rw [List.append_nil]; exact .nil _
  | cons fields records ih =>
      have hreads := (reads_record returns rs fields).append (ih (rs ++ [fields]))
      rwa [List.append_assoc] at hreads

end Reader

/-- Records are read back from their text, whatever characters are in them. -/
theorem read_print (returns : Bool) (records : List (List String)) :
    read (print returns records) = some records := by
  have hreads := Reader.reads_records returns [] (records.map fun fields => fields.map (·.toList))
  rw [List.flatMap_map, Reader.Reads] at hreads
  rw [read, print, String.toList_ofList, hreads]
  simp [Reader.isBetween]

example : read "a,\"b\"\"\n\"\n\n\"\"\n" = some [["a", "b\"\n"], [], [""]] := by decide

end ContractSurvey.Csv
