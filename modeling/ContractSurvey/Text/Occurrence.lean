/-!
# Text — Occurrence

Where one list stands inside another: whether it occurs, and how often it occurs when the
occurrences counted may not overlap.
-/

namespace ContractSurvey.Text

/-- Whether `word` stands somewhere in the text. -/
def occursIn (word : List Char) : List Char → Bool
  | [] => word.isEmpty
  | c :: rest => word.isPrefixOf (c :: rest) || occursIn word rest

/-- Occurrences of a non-empty word from left to right, none starting inside the one before;
`skip` characters of the last one are still to pass. -/
def countApart (word : List Char) : Nat → List Char → Nat
  | _, [] => 0
  | skip + 1, _ :: rest => countApart word skip rest
  | 0, c :: rest =>
    if word.isPrefixOf (c :: rest) then 1 + countApart word (word.length - 1) rest
    else countApart word 0 rest

/-- How often `word` occurs without overlaps.  The empty word occurs before every character and at
the end. -/
def occurrences (word text : List Char) : Nat :=
  if word.isEmpty then text.length + 1 else countApart word 0 text

/-- Whether `word` stands somewhere in the text. -/
def contains (text word : String) : Bool := occursIn word.toList text.toList

theorem occursIn_iff (word text : List Char) : occursIn word text ↔ word <:+: text := by
  induction text with
  | nil => simp [occursIn]
  | cons c rest ih => simp [occursIn, ih, List.infix_cons_iff]

end ContractSurvey.Text
