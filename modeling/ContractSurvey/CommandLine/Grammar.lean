import ContractSurvey.CommandLine.Word
import ContractSurvey.Text.Line
import ContractSurvey.Text.Quoted

/-!
# CommandLine — Grammar

One level of a command line: options, each with a value, and operands between them.  The words are
taken from left to right, and the first that does not fit ends the reading; words that are merely
not understood are collected.  Every level has the help option, which ends the reading as well.
Two dashes behind an equals sign are a value on some platforms, and on others they mean that the
option is given without one.

Operands stand together: `many` takes those up to the next option, and later ones are not
understood.  `Grammar.walk_plain` says what a row of plain words becomes.
-/

namespace ContractSurvey.CommandLine

/-- Why a command line is not carried out. -/
inductive Refusal where
  /-- Help was asked for. -/
  | help
  | usage (program message : String)
  deriving DecidableEq, Repr

namespace Refusal

def exitCode : Refusal → Nat
  | .help => 0
  | .usage _ _ => 2

/-- What is said about it on the error stream. -/
def text : Refusal → String
  | .help => ""
  | .usage program message => program ++ ": error: " ++ message

/-- The last line of that. -/
def lastLine (r : Refusal) : String := String.ofList (Text.lastLine r.text.toList)

end Refusal

/-- An option with a value, on the way to a result `α`. -/
structure ValueOption (α : Type) where
  name : String
  /-- Enters the value, if there is one, or says what is wrong with it. -/
  enter : Option String → α → Except String α

/-- The operands that a level takes. -/
inductive Operands where
  | none
  | one
  | many
  /-- A word and everything behind it, as it stands. -/
  | rest
  deriving DecidableEq, Repr

/-- A level that reads its options into `α` and with its operands makes a `β`. -/
structure Grammar (α β : Type) where
  program : String
  options : List (ValueOption α)
  operands : Operands
  start : α
  /-- The name of what has to be given. -/
  required : String
  /-- The result, unless what is required is missing. -/
  finish : α → List String → Option β
  /-- Two dashes behind an equals sign are a value like any other. -/
  keepsDashes : Bool

/-- How far the operands are. -/
inductive Phase where
  | waiting
  | taking
  | closed
  deriving DecidableEq, Repr

/-- What a level has read so far. -/
structure Progress (α : Type) where
  values : α
  operands : List String := []
  phase : Phase := .waiting
  extras : List String := []

namespace Progress

variable {α : Type}

/-- The operands end where an option comes. -/
def interrupted (p : Progress α) : Progress α :=
  if p.phase = .taking then { p with phase := .closed } else p

def take (p : Progress α) (texts : List String) (phase : Phase) : Progress α :=
  { p with operands := p.operands ++ texts, phase }

def setAside (p : Progress α) (text : String) : Progress α :=
  { p with extras := p.extras ++ [text] }

end Progress

/-! ### The help option -/

def helpNames : List String := ["-h", "--help"]

/-- What stands behind the letter of the help option and is refused.  Further such letters do not
matter. -/
def refusedBehindHelp : List Char → Option String
  | ['h'] => none
  | 'h' :: c :: rest => refusedBehindHelp (c :: rest)
  | rest => some (String.ofList rest)

/-- The value with a name of the help option that is refused; without one, help is given. -/
def refusedHelpValue (name : String) : Attachment → Option String
  | .none => none
  | .marked value | .bare value =>
    if name = "-h" then refusedBehindHelp value.toList else some value

/-- The value that a text stands for. -/
def valueOf? (keepsDashes : Bool) (text : String) : Option String :=
  if text = "--" && !keepsDashes then none else some text

namespace Grammar

variable {α β : Type}

/-- The names of all options, in the order in which they are listed. -/
def names (g : Grammar α β) : List String := helpNames ++ g.options.map (·.name)

def refusal (g : Grammar α β) (message : String) : Refusal := .usage g.program message

/-- A refusal of an argument under its name. -/
def argumentRefusal (g : Grammar α β) (name message : String) : Refusal :=
  g.refusal ("argument " ++ name ++ ": " ++ message)

def helpRefusal (g : Grammar α β) (name : String) (attachment : Attachment) : Refusal :=
  match refusedHelpValue name attachment with
  | none => .help
  | some value =>
    g.argumentRefusal ("/".intercalate helpNames)
      ("ignored explicit argument " ++ Text.quoted value)

/-- Enters the value that a text gives an option. -/
def enter (g : Grammar α β) (o : ValueOption α) (text : String) (p : Progress α) :
    Except Refusal (Progress α) :=
  match o.enter (valueOf? g.keepsDashes text) p.values with
  | .ok values => .ok { p.interrupted with values }
  | .error message => .error (g.argumentRefusal o.name message)

/-- Reads the words from left to right. -/
def walk (g : Grammar α β) : List Word → Progress α → Except Refusal (Progress α)
  | [], p => .ok p
  | ⟨text, .unknown⟩ :: rest, p => g.walk rest (p.interrupted.setAside text)
  | ⟨_, .option name attachment⟩ :: rest, p =>
    if name ∈ helpNames then .error (g.helpRefusal name attachment)
    else
      match g.options.find? (·.name = name), attachment with
      | none, _ => g.walk rest p
      | some o, .marked value | some o, .bare value => do
        let p ← g.enter o value p
        g.walk rest p
      | some o, .none =>
        match rest with
        | ⟨value, .plain⟩ :: rest => do
          let p ← g.enter o value p
          g.walk rest p
        | _ => .error (g.argumentRefusal o.name "expected one argument")
  | ⟨text, .separator⟩ :: rest, p =>
    match g.operands, p.phase, rest with
    | .one, .waiting, w :: rest => g.walk rest (p.take [w.text] .closed)
    | .many, .waiting, w :: rest => g.walk rest (p.take [w.text] .taking)
    | .many, .taking, rest => g.walk rest p
    | .rest, .waiting, w :: rest =>
      .ok (p.take (text :: w.text :: rest.map (·.text)) .closed)
    | _, _, rest => g.walk rest (p.setAside text)
  | ⟨text, .plain⟩ :: rest, p =>
    match g.operands, p.phase, rest with
    | .one, .waiting, ⟨_, .separator⟩ :: rest => g.walk rest (p.take [text] .closed)
    | .one, .waiting, rest => g.walk rest (p.take [text] .closed)
    | .many, .waiting, rest | .many, .taking, rest => g.walk rest (p.take [text] .taking)
    | .rest, .waiting, rest => .ok (p.take (text :: rest.map (·.text)) .closed)
    | _, _, rest => g.walk rest (p.setAside text)

/-- The result of a level, and the words that it did not understand. -/
def parse (g : Grammar α β) (args : List String) : Except Refusal (β × List String) :=
  match words g.names args with
  | .error a => .error (g.refusal a.message)
  | .ok ws => do
    let p ← g.walk ws { values := g.start }
    match g.finish p.values p.operands with
    | some b => .ok (b, p.extras)
    | none => .error (g.refusal ("the following arguments are required: " ++ g.required))

/-! ### Plain words -/

/-- Plain words are operands one after the other where many are taken. -/
theorem walk_plain {g : Grammar α β} (h : g.operands = .many) (texts : List String)
    {p : Progress α} (hp : p.phase ≠ .closed) :
    g.walk (texts.map fun t => ⟨t, .plain⟩) p =
      .ok (if texts.isEmpty then p else p.take texts .taking) := by
  induction texts generalizing p with
  | nil => rfl
  | cons t ts ih =>
    have step : g.walk (⟨t, .plain⟩ :: ts.map fun t => ⟨t, .plain⟩) p =
        g.walk (ts.map fun t => ⟨t, .plain⟩) (p.take [t] .taking) := by
      cases hq : p.phase <;> simp [walk, h, hq] at hp ⊢
    rw [List.map_cons, step, ih (by simp [Progress.take])]
    cases ts <;> simp [Progress.take]

end Grammar

end ContractSurvey.CommandLine
