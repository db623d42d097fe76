import ContractSurvey.Text.Digit

/-!
# CommandLine — Word

The words of a command line and what each is taken for.  A word that starts with a dash names an
option, in full or by any beginning that fits one option only, unless it looks like a negative
number or holds a space.  Behind the first `--` every word is plain.

`role_of_head_ne` and `words_eq_plain` say that words without a leading dash are plain, and
`words_text` that no word is lost.
-/

namespace ContractSurvey.CommandLine

/-- A value that stands in one word with its option. -/
inductive Attachment where
  | none
  /-- Behind an equals sign. -/
  | marked (value : String)
  /-- Right behind an option of one letter. -/
  | bare (value : String)
  deriving DecidableEq, Repr

inductive Role where
  | plain
  /-- The first `--`. -/
  | separator
  | option (name : String) (attachment : Attachment)
  /-- A word in the form of an option that names none. -/
  | unknown
  deriving DecidableEq, Repr

structure Word where
  text : String
  role : Role
  deriving DecidableEq, Repr

/-- A word that is the beginning of several options. -/
structure Ambiguity where
  text : String
  names : List String
  deriving DecidableEq, Repr

def Ambiguity.message (a : Ambiguity) : String :=
  "ambiguous option: " ++ a.text ++ " could match " ++ ", ".intercalate a.names

/-- What stands before the first equals sign, and the value behind it. -/
def splitMark (cs : List Char) : List Char × Attachment :=
  match cs.dropWhile (· ≠ '=') with
  | [] => (cs, .none)
  | _ :: value => (cs.takeWhile (· ≠ '='), .marked (String.ofList value))

/-- The options that a word may stand for: those it is the beginning of, or for a single dash the
one of its first letter. -/
def candidates (names : List String) (cs : List Char) : List (String × Attachment) :=
  if ['-', '-'].isPrefixOf cs then
    let (stem, attachment) := splitMark cs
    (names.filter fun n => stem.isPrefixOf n.toList).map (·, attachment)
  else
    (names.filter fun n => n.toList = cs.take 2).map (·, .bare (String.ofList (cs.drop 2)))

def isDecimal (c : Char) : Bool := (Text.decimalValue? c).isSome

/-- A minus sign before digits of any script, with or without a point before the last of them; a
line may end behind them. -/
def looksNegative : List Char → Bool
  | '-' :: rest =>
    let body := if rest.getLast? = some '\n' then rest.dropLast else rest
    match body.dropWhile isDecimal with
    | [] => !body.isEmpty
    | '.' :: places => !places.isEmpty && places.all isDecimal
    | _ => false
  | _ => false

/-- What a word before any `--` is taken for. -/
def role (names : List String) (text : String) : Except Ambiguity Role :=
  let cs := text.toList
  if cs.head? ≠ some '-' then .ok .plain
  else if text ∈ names then .ok (.option text .none)
  else if cs.length = 1 then .ok .plain
  else
    let (stem, attachment) := splitMark cs
    if String.ofList stem ∈ names then .ok (.option (String.ofList stem) attachment)
    else
      match candidates names cs with
      | [(name, attachment)] => .ok (.option name attachment)
      | [] => .ok (if looksNegative cs || cs.contains ' ' then .plain else .unknown)
      | several => .error ⟨text, several.map Prod.fst⟩

/-- The words with their roles. -/
def words (names : List String) : List String → Except Ambiguity (List Word)
  | [] => .ok []
  | text :: rest =>
    if text = "--" then .ok (⟨text, .separator⟩ :: rest.map fun t => ⟨t, .plain⟩)
    else do
      let r ← role names text
      let ws ← words names rest
      return ⟨text, r⟩ :: ws

theorem role_of_head_ne {names : List String} {text : String}
    (h : text.toList.head? ≠ some '-') : role names text = .ok .plain := by
  simp [role, h]

theorem words_eq_plain {names texts : List String}
    (h : ∀ t ∈ texts, t.toList.head? ≠ some '-') :
    words names texts = .ok (texts.map fun t => ⟨t, .plain⟩) := by
  induction texts with
  | nil => rfl
  | cons t ts ih =>
    have ht : t ≠ "--" := fun e => h t (by simp) (by simp [e])
    rw [words, if_neg ht, role_of_head_ne (h t (by simp)), ih fun u hu => h u (by simp [hu])]
    rfl

theorem words_text {names texts : List String} {ws : List Word} (h : words names texts = .ok ws) :
    ws.map (·.text) = texts := by
  induction texts generalizing ws with
  | nil => cases h; rfl
  | cons t ts ih =>
    rw [words] at h
    split at h
    · cases h; simp [Function.comp_def]
    · cases hr : role names t with
      | error e => rw [hr] at h; cases h
      | ok r =>
        cases hs : words names ts with
        | error e => rw [hr, hs] at h; cases h
        | ok rest =>
          rw [hr, hs] at h
          cases h
          simp [ih hs]

end ContractSurvey.CommandLine
