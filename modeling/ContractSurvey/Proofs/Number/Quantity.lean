import ContractSurvey.Number.Quantity
import ContractSurvey.Proofs.Number.Bound

/-!
# Proofs — Number — Quantity

Quantities that are numbers stand in one line, whole and measured ones together.  The place of a
quantity is its value in units, with the infinities at the two ends; a whole quantity has its exact
place whatever its size, although it is held against doubles by way of its neighbours among them
(`above_le_iff_place`, `le_below_iff_place`).

The main statement is `Quantity.le_iff_place`: the order of quantities is that of their places, so
that any two numbers are ordered (`Place.le_total`) and the order passes on (`Place.le_trans`), also
from one double to another by way of a whole quantity that is no double.
-/

namespace ContractSurvey

/-! ### Places -/

/-- Where a number stands: on which side of the finite ones, if not among them, and its units. -/
structure Place where
  side : Int
  units : Int

namespace Place

protected def Le (a b : Place) : Prop := a.side < b.side ∨ a.side = b.side ∧ a.units ≤ b.units

instance : LE Place := ⟨Place.Le⟩

instance (a b : Place) : Decidable (a ≤ b) :=
  inferInstanceAs (Decidable (a.side < b.side ∨ a.side = b.side ∧ a.units ≤ b.units))

variable {a b c : Place}

theorem le_iff : a ≤ b ↔ a.side < b.side ∨ a.side = b.side ∧ a.units ≤ b.units := Iff.rfl

theorem mk_le_mk {s t u v : Int} : (⟨s, u⟩ : Place) ≤ ⟨t, v⟩ ↔ s < t ∨ s = t ∧ u ≤ v := Iff.rfl

theorem le_trans (hab : a ≤ b) (hbc : b ≤ c) : a ≤ c := by
  rw [le_iff] at *
  omega

theorem le_total (a b : Place) : a ≤ b ∨ b ≤ a := by
  rw [le_iff, le_iff]
  omega

end Place

/-! ### Doubles -/

namespace Binary64

/-- The side of the finite numbers on which a double lies, if it is not one of them. -/
def side : Binary64 → Int
  | .infinite true => -1
  | .infinite false => 1
  | _ => 0

def place (x : Binary64) : Place := ⟨x.side, x.units⟩

variable {x y : Binary64} {n : Int}

theorem units_infinite_true : (infinite true).units = -(infinite false).units :=
  units_neg (infinite false)

theorem infinite_lt_units (hx : x.isFinite = true) : -(infinite false).units < x.units := by
  have hlt := units_lt_infinite (x := -x) (by rwa [isFinite_neg])
  rw [units_neg] at hlt
  omega

/-- A number is finite or one of the two infinities, and its units tell which. -/
theorem side_spec (h : x.isNaN = false) :
    (x.side = 0 ∧ x.isFinite = true ∧ -(infinite false).units < x.units ∧
      x.units < (infinite false).units) ∨
    (x.side = 1 ∧ x.units = (infinite false).units) ∨
    (x.side = -1 ∧ x.units = -(infinite false).units) := by
  cases x with
  | nan => cases h
  | infinite s =>
      cases s with
      | false => exact .inr (.inl ⟨rfl, rfl⟩)
      | true => exact .inr (.inr ⟨rfl, units_infinite_true⟩)
  | finite s m e hc => exact .inl ⟨rfl, rfl, infinite_lt_units rfl, units_lt_infinite rfl⟩

theorem le_iff_place (hx : x.isNaN = false) (hy : y.isNaN = false) :
    x ≤ y ↔ x.place ≤ y.place := by
  have hxs := side_spec hx
  have hys := side_spec hy
  have hpos := units_infinite_pos
  rw [le_iff_units hx hy, place, place, Place.mk_le_mk]
  omega

/-! ### Doubles and whole numbers -/

theorem isFinite_under (n : Nat) : (under n).isFinite = true := by
  unfold under
  dsimp only
  split
  · assumption
  · exact isFinite_ofParts false ⟨by decide, Nat.le_refl _, .inr (by decide)⟩

theorem units_ofInt_nonneg (n : Nat) : 0 ≤ (ofInt n).units := by
  rw [ofInt, ofRatio_natCast, units, isNegative_nearest]
  exact Int.natCast_nonneg _

/-- A bound from above is a number that is not infinitely small. -/
theorem above_spec (n : Int) :
    (above n).isNaN = false ∧ -(infinite false).units < (above n).units := by
  have hpos := units_infinite_pos
  rw [above]
  split
  · have hnonneg := units_ofInt_nonneg (ceilOf n.toNat)
    exact ⟨isNaN_ofInt _, by omega⟩
  · have hfinite := isFinite_under n.natAbs
    have hlt := units_lt_infinite hfinite
    rw [isNaN_neg, units_neg]
    exact ⟨isNaN_of_isFinite hfinite, by omega⟩

/-- A bound from below is a number that is not infinitely great. -/
theorem below_spec (n : Int) :
    (below n).isNaN = false ∧ (below n).units < (infinite false).units := by
  have hpos := units_infinite_pos
  rw [below]
  split
  · have hfinite := isFinite_under n.toNat
    exact ⟨isNaN_of_isFinite hfinite, units_lt_infinite hfinite⟩
  · have hnonneg := units_ofInt_nonneg (ceilOf n.natAbs)
    rw [isNaN_neg, units_neg]
    exact ⟨isNaN_ofInt _, by omega⟩

theorem above_le_iff_place (hy : y.isNaN = false) : above n ≤ y ↔ ⟨0, n * one⟩ ≤ y.place := by
  obtain ⟨hnumber, hlt⟩ := above_spec n
  rw [place, Place.mk_le_mk]
  rcases side_spec hy with ⟨hside, hfinite, -, -⟩ | ⟨hside, hunits⟩ | ⟨hside, hunits⟩
  · rw [above_le_iff hfinite]
    omega
  · have hle := side_spec hnumber
    rw [le_iff_units hnumber hy]
    omega
  · rw [le_iff_units hnumber hy]
    omega

theorem le_below_iff_place (hy : y.isNaN = false) : y ≤ below n ↔ y.place ≤ ⟨0, n * one⟩ := by
  obtain ⟨hnumber, hlt⟩ := below_spec n
  rw [place, Place.mk_le_mk]
  rcases side_spec hy with ⟨hside, hfinite, -, -⟩ | ⟨hside, hunits⟩ | ⟨hside, hunits⟩
  · rw [le_below_iff hfinite]
    omega
  · rw [le_iff_units hy hnumber]
    omega
  · have hle := side_spec hnumber
    rw [le_iff_units hy hnumber]
    omega

end Binary64

/-! ### Quantities -/

namespace Quantity

/-- The quantity is a whole number or a double other than NaN. -/
def isNumber : Quantity → Bool
  | .whole _ => true
  | .measured x => !x.isNaN

/-- The place of a number among all values. -/
def place : Quantity → Place
  | .whole n => ⟨0, n * Binary64.one⟩
  | .measured x => x.place

/-- **The order of quantities** is the order of their places. -/
theorem le_iff_place {p q : Quantity} (hp : p.isNumber = true) (hq : q.isNumber = true) :
    p ≤ q ↔ p.place ≤ q.place := by
  cases p with
  | whole m =>
      cases q with
      | whole n =>
          have hone : (0 : Int) < Binary64.one := Int.natCast_pos.mpr Binary64.one_pos
          rw [whole_le_whole, place, place, Place.mk_le_mk, Int.mul_le_mul_iff_of_pos_right hone]
          simp
      | measured y => exact Binary64.above_le_iff_place (by simpa [isNumber] using hq)
  | measured x =>
      have hx : x.isNaN = false := by simpa [isNumber] using hp
      cases q with
      | whole n => exact Binary64.le_below_iff_place hx
      | measured y => exact Binary64.le_iff_place hx (by simpa [isNumber] using hq)

end Quantity

end ContractSurvey
