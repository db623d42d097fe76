import ContractSurvey.Number.Reading
import ContractSurvey.Number.Whole

/-!
# Settings — Value

Numbers as settings hold them, in ASCII digits.  Blanks at the two ends do not count, and an
underscore may stand anywhere inside but beside another.  A whole number may have zeros before its
digits, or before its sign, and a point with nothing but zeros behind it.
-/

namespace ContractSurvey

/-- What is wrong with the value of a setting. -/
inductive SettingFault where
  | notWhole
  /-- More digits than a whole number may have. -/
  | tooLong
  | notNumber
  /-- Below nothing. -/
  | tooSmall
  /-- Above a hundred. -/
  | tooLarge
  deriving DecidableEq, Repr

def SettingFault.label : SettingFault → String
  | .notWhole => "int_parsing"
  | .tooLong => "int_parsing_size"
  | .notNumber => "float_parsing"
  | .tooSmall => "greater_than_equal"
  | .tooLarge => "less_than_equal"

namespace Settings

/-- Whether two underscores stand side by side. -/
def hasDoubleUnderscore : List Char → Bool
  | '_' :: '_' :: _ => true
  | _ :: rest => hasDoubleUnderscore rest
  | [] => false

/-- The text without its underscores, if none of them stands at an end or beside another. -/
def joined? (cs : List Char) : Option (List Char) :=
  if cs.head? = some '_' || cs.getLast? = some '_' || hasDoubleUnderscore cs then none
  else some (cs.filter (· ≠ '_'))

/-! ### Whole numbers -/

/-- The text without a plus sign, which no other sign may follow. -/
def withoutPlus? : List Char → Option (List Char)
  | '+' :: rest => if rest.head? = some '-' then none else some rest
  | cs => some cs

/-- The text without the zeros before a number, and without underscores between them; one zero
stays if no other digit follows.  A minus sign may stand behind the zeros. -/
def withoutZeros? (cs : List Char) : Option (List Char) :=
  match cs with
  | '0' :: _ =>
    let zeros := cs.takeWhile fun c => c = '0' || c = '_'
    match cs.dropWhile fun c => c = '0' || c = '_' with
    | [] => zeros.getLast?.map ([·])
    | '.' :: places => zeros.getLast?.map (· :: '.' :: places)
    | c :: rest => if c.isDigit || c = '-' then some (c :: rest) else none
  | c :: _ => if c.isDigit then some cs else none
  | [] => none

/-- The text without the zeros before a number, its minus sign kept in front. -/
def withoutLeadingZeros? : List Char → Option (List Char)
  | '-' :: rest => (withoutZeros? rest).map ('-' :: ·)
  | cs => withoutZeros? cs

/-- The text without a point and the zeros behind it. -/
def withoutZeroPlaces (cs : List Char) : List Char :=
  match cs.dropWhile (· ≠ '.') with
  | _ :: places =>
    if !places.isEmpty && places.all (· == '0') then cs.takeWhile (· ≠ '.') else cs
  | [] => cs

/-- Whether a text starts with too many digits, the first of them no zero, behind an optional minus
sign.  Such a text is given up at once. -/
def startsTooLong : List Char → Bool
  | '-' :: rest => isLong rest
  | cs => isLong cs
where
  isLong (cs : List Char) : Bool :=
    cs.head? ≠ some '0' && digitLimit < (cs.takeWhile Char.isDigit).length

/-- Digits behind an optional minus sign, without zeros before them. -/
def canonicalWhole? (cs : List Char) : Option Int :=
  let (negative, digits) := Reading.sign cs
  if (digits.head? = some '0' && digits ≠ ['0']) || digitLimit < digits.length then none
  else (Reading.digits? digits).map fun n => if negative then -(n : Int) else n

/-- The whole number that a value writes, if it writes one. -/
def wholeNumber? (cs : List Char) : Option Int := do
  let cs ← withoutPlus? (Reading.withoutMargins cs)
  let cs ← withoutLeadingZeros? cs
  canonicalWhole? (← joined? (withoutZeroPlaces cs))

/-- The whole number that a value writes. -/
def wholeValue (s : String) : Except SettingFault Int :=
  if startsTooLong s.toList then .error .tooLong
  else
    match wholeNumber? s.toList with
    | some n => .ok n
    | none => .error .notWhole

/-! ### Doubles -/

/-- The double that a value writes; with underscores in it, no blanks may surround it. -/
def doubleValue (s : String) : Except SettingFault Binary64 :=
  match (Reading.double? (Reading.withoutMargins s.toList)).orElse fun _ =>
      (joined? s.toList).bind Reading.double? with
  | some x => .ok x
  | none => .error .notNumber

/-- The percentage that a value writes. -/
def percentValue (s : String) : Except SettingFault Binary64 := do
  let x ← doubleValue s
  if ¬ x ≤ 100 then .error .tooLarge else if ¬ 0 ≤ x then .error .tooSmall else .ok x

theorem percentValue_le {s : String} {x : Binary64} (h : percentValue s = .ok x) :
    0 ≤ x ∧ x ≤ 100 := by
  unfold percentValue at h
  cases hd : doubleValue s with
  | error e => rw [hd] at h; cases h
  | ok y =>
    rw [hd] at h
    change (if ¬ y ≤ 100 then _ else if ¬ 0 ≤ y then _ else _) = _ at h
    split at h
    · cases h
    · split at h
      · cases h
      · cases h
        exact ⟨Decidable.not_not.1 ‹_›, Decidable.not_not.1 ‹_›⟩

end Settings

end ContractSurvey
