/-!
# Bytecode — Scan

A shape is a row of sets of characters, and it fits a text whose first characters lie in these
sets, place by place.  `Shape.found` collects the fitting places from left to right, none of them
inside the one before.
-/

namespace ContractSurvey.Bytecode

/-- For each place, the characters that may stand there. -/
abbrev Shape := List (List Char)

/-- The lower-case hexadecimal digits. -/
def hexSet : List Char := "0123456789abcdef".toList

namespace Shape

/-- The shape of one word. -/
def word (s : String) : Shape := s.toList.map ([·])

/-- Whether the shape fits the front of a text. -/
def fits : Shape → List Char → Bool
  | [], _ => true
  | _ :: _, [] => false
  | set :: shape, c :: rest => set.contains c && fits shape rest

/-- The fitting pieces from left to right; `skip` characters of the last one are still to pass. -/
def foundFrom (shape : Shape) : Nat → List Char → List (List Char)
  | _, [] => []
  | skip + 1, _ :: rest => foundFrom shape skip rest
  | 0, c :: rest =>
    if shape.fits (c :: rest) then
      (c :: rest).take shape.length :: foundFrom shape (shape.length - 1) rest
    else foundFrom shape 0 rest

/-- The pieces of a text that fit, from left to right and without overlaps. -/
def found (shape : Shape) (text : List Char) : List (List Char) := shape.foundFrom 0 text

/-- The first piece of a text that fits. -/
def first? (shape : Shape) : List Char → Option (List Char)
  | [] => none
  | c :: rest =>
    if shape.fits (c :: rest) then some ((c :: rest).take shape.length) else shape.first? rest

end Shape

end ContractSurvey.Bytecode
