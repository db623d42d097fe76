import ContractSurvey.Number.Word

/-!
# Sequence — Slice

Initial and final parts of a list by a signed position: a negative position counts from the end,
and one beyond an end stands at that end.  A single element is named by a signed index, which has
to lie within the list; the fault of one that does not says whether it even fits a signed word of
64 bits.
-/

namespace ContractSurvey.Sequence

/-- The place in a list of `length` elements that a signed position names. -/
def place (length : Nat) (position : Int) : Nat :=
  if 0 ≤ position then min position.toNat length else (length + position).toNat

/-- The elements before a position. -/
def upTo {α : Type} (xs : List α) (position : Int) : List α := xs.take (place xs.length position)

/-- The elements from a position on. -/
def startingAt {α : Type} (xs : List α) (position : Int) : List α :=
  xs.drop (place xs.length position)

/-- Why an index names no slot. -/
inductive IndexFault where
  | outOfRange
  /-- It does not fit a signed word. -/
  | beyondWord
  deriving DecidableEq, Repr

def IndexFault.message : IndexFault → String
  | .outOfRange => "list index out of range"
  | .beyondWord => "cannot fit 'int' into an index-sized integer"

/-- The slot that a signed index names in a list of `length` elements. -/
def slot (length : Nat) (index : Int) : Except IndexFault Nat :=
  let i := if index < 0 then length + index else index
  if 0 ≤ i ∧ i < length then .ok i.toNat
  else if !fitsWord index then .error .beyondWord
  else .error .outOfRange

/-- The element at a signed index, and the list without it. -/
def remove {α : Type} (xs : List α) (index : Int) : Except IndexFault (α × List α) :=
  match slot xs.length index with
  | .error e => .error e
  | .ok i =>
    match xs[i]? with
    | some x => .ok (x, xs.eraseIdx i)
    | none => .error .outOfRange

theorem upTo_append_startingAt {α : Type} (xs : List α) (position : Int) :
    upTo xs position ++ startingAt xs position = xs := by
  simp [upTo, startingAt]

theorem slot_natCast {length i : Nat} (h : i < length) : slot length (i : Int) = .ok i := by
  have h0 : ¬ (i : Int) < 0 := by omega
  have h1 : 0 ≤ (i : Int) ∧ (i : Int) < length := by omega
  simp only [slot, h0, h1, if_false, if_true, and_self, Int.toNat_natCast]

theorem slot_lt {length i : Nat} {index : Int} (h : slot length index = .ok i) : i < length := by
  unfold slot at h
  grind

theorem slot_eq_ok_iff {length i : Nat} {index : Int} :
    slot length index = .ok i ↔ i < length ∧ (index = i ∨ index = i - length) := by
  unfold slot
  grind

/-- An index is refused exactly if it lies outside the list, counted from either end. -/
theorem slot_eq_error_iff {length : Nat} {index : Int} :
    (∃ e, slot length index = .error e) ↔ ¬ (-length ≤ index ∧ index < length) := by
  have hok : (∃ i, slot length index = .ok i) ↔ -length ≤ index ∧ index < length := by
    simp only [slot_eq_ok_iff]
    constructor
    · rintro ⟨i, hi, h⟩
      omega
    · rintro ⟨h, h'⟩
      by_cases h0 : index < 0
      · exact ⟨(index + length).toNat, by omega⟩
      · exact ⟨index.toNat, by omega⟩
  rw [← hok]
  cases slot length index <;> simp

/-- A negative index names the slot of its place counted from the start. -/
theorem slot_add_length {length : Nat} {index : Int} (h : -length ≤ index) (h0 : index < 0) :
    slot length (index + length) = slot length index := by
  unfold slot
  grind

end ContractSurvey.Sequence
