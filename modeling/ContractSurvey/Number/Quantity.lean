import ContractSurvey.Number.Bound
import ContractSurvey.Number.Quotient
import ContractSurvey.Number.Written

/-!
# Number — Quantity

Quantities, whole or measured: a whole one is exact whatever its size, but has a text only if it is
short; a measured one is a double.  Where one is wanted it may also be missing, and what cannot do
without it says so.  They are ordered by value, and a total of whole quantities is whole, which
`Quantity.total_whole` says.
-/

namespace ContractSurvey

inductive Quantity where
  | whole (n : Int)
  | measured (x : Binary64)
  deriving DecidableEq, Repr

/-- Why something cannot be computed from quantities. -/
inductive QuantityError where
  /-- A missing quantity is held against a bound. -/
  | unordered
  /-- A missing quantity is added to a total, which is measured or whole. -/
  | unadded (measured : Bool)
  | range (e : RangeError)
  /-- A whole quantity has no text. -/
  | digits (e : DigitError)
  deriving DecidableEq, Repr

def QuantityError.message : QuantityError → String
  | .unordered => "a missing quantity has no order"
  | .unadded _ => "a missing quantity cannot be added"
  | .range e => e.message
  | .digits e => e.message

namespace Quantity

def isMeasured : Quantity → Bool
  | .whole _ => false
  | .measured _ => true

def isZero : Quantity → Bool
  | .whole n => n = 0
  | .measured x => x.isZero

def isPositive : Quantity → Bool
  | .whole n => 0 < n
  | .measured x => 0 < x

def text : Quantity → Except QuantityError String
  | .whole n => (Whole.text n).mapError .digits
  | .measured x => .ok x.text

/-- A quantity in a text, with a word for a missing one. -/
def shown : Option Quantity → Except QuantityError String
  | some q => q.text
  | none => .ok "None"

/-- A quantity that must not be missing. -/
def stated : Option Quantity → Except QuantityError Quantity
  | some q => .ok q
  | none => .error .unordered

/-- The quantity as a double. -/
def double : Quantity → Except RangeError Binary64
  | .whole n => Binary64.converted n
  | .measured x => .ok x

/-! ### Order -/

/-- At most, by value. -/
protected def Le : Quantity → Quantity → Prop
  | .whole m, .whole n => m ≤ n
  | .whole m, .measured y => Binary64.above m ≤ y
  | .measured x, .whole n => x ≤ Binary64.below n
  | .measured x, .measured y => x ≤ y

instance : LE Quantity := ⟨Quantity.Le⟩

instance : (p q : Quantity) → Decidable (p ≤ q)
  | .whole m, .whole n => inferInstanceAs (Decidable (m ≤ n))
  | .whole m, .measured y => inferInstanceAs (Decidable (Binary64.above m ≤ y))
  | .measured x, .whole n => inferInstanceAs (Decidable (x ≤ Binary64.below n))
  | .measured x, .measured y => inferInstanceAs (Decidable (x ≤ y))

@[simp] theorem whole_le_whole {m n : Int} : whole m ≤ whole n ↔ m ≤ n := Iff.rfl

/-- The least double from a quantity on. -/
def above : Quantity → Binary64
  | .whole n => Binary64.above n
  | .measured x => x

/-- The greatest double up to a quantity. -/
def below : Quantity → Binary64
  | .whole n => Binary64.below n
  | .measured x => x

/-! ### Totals and shares -/

/-- A total with one more term. -/
def plus (total : Quantity) (term : Option Quantity) : Except QuantityError Quantity :=
  match total, term with
  | _, none => .error (.unadded total.isMeasured)
  | .whole m, some (.whole n) => .ok (.whole (m + n))
  | p, some q =>
    match p.double, q.double with
    | .ok x, .ok y => .ok (.measured (x + y))
    | .error e, _ | _, .error e => .error (.range e)

/-- The total of some quantities, added up in their order. -/
def total (terms : List (Option Quantity)) : Except QuantityError Quantity :=
  terms.foldlM plus (.whole 0)

/-- The quotient of a quantity and a positive one. -/
def quotient (part base : Quantity) : Except QuantityError Binary64 :=
  match part, base with
  | .whole m, .whole n => (Binary64.quotient m n.toNat).mapError .range
  | p, q =>
    match p.double, q.double with
    | .ok x, .ok y => .ok (x / y)
    | .error e, _ | _, .error e => .error (.range e)

theorem foldlM_plus_whole (ns : List Int) (n : Int) :
    (ns.map fun m => some (whole m)).foldlM plus (whole n) =
      .ok (whole (ns.foldl (fun sum m => sum + m) n)) := by
  induction ns generalizing n with
  | nil => simp [pure, Except.pure]
  | cons m rest ih =>
    have h : plus (whole n) (some (whole m)) = .ok (whole (n + m)) := rfl
    simp only [List.map_cons, List.foldlM_cons, h, List.foldl_cons]
    exact ih (n + m)

theorem total_whole (ns : List Int) :
    total (ns.map fun n => some (whole n)) =
      .ok (whole (ns.foldl (fun sum n => sum + n) 0)) :=
  foldlM_plus_whole ns 0

end Quantity

end ContractSurvey
