import ContractSurvey.Bytecode.Scan
import ContractSurvey.Proofs.Text.LowerCase
import Mathlib.Data.List.Forall2

/-!
# Proofs — Bytecode — Scan

Scans over texts of which only some characters are known.  An outline names the character of some
places and says nothing of the others (`Outline.Describes`).  Where a shape clashes with every rear
part of an outline, the scan passes over all texts of the outline without a find, whatever follows
them (`foundFrom_of_avoids`).  A piece that fits at the place of the scan is found, and the scan
goes on behind it (`foundFrom_of_fits`).
-/

namespace ContractSurvey.Bytecode

/-- For each place of a text its character, or nothing. -/
abbrev Outline := List (Option Char)

namespace Outline

/-- The outline of a known text. -/
def known (cs : List Char) : Outline := cs.map some

/-- The outline of any text of a length. -/
def unknown (n : Nat) : Outline := List.replicate n none

/-- The text has the characters that the outline names. -/
def Describes (outline : Outline) (cs : List Char) : Prop :=
  List.Forall₂ (fun o c => ∀ d ∈ o, d = c) outline cs

theorem describes_known (cs : List Char) : (known cs).Describes cs := by
  rw [known, Describes, List.forall₂_map_left_iff]
  exact List.forall₂_same.mpr fun c _ => by simp

theorem describes_unknown (cs : List Char) : (unknown cs.length).Describes cs := by
  induction cs with
  | nil => exact .nil
  | cons c cs ih => exact .cons (by simp) ih

theorem Describes.append {o₁ o₂ : Outline} {cs₁ cs₂ : List Char} (h₁ : o₁.Describes cs₁)
    (h₂ : o₂.Describes cs₂) : (o₁ ++ o₂).Describes (cs₁ ++ cs₂) := List.rel_append h₁ h₂

end Outline

namespace Shape

variable {shape : Shape}

/-! ### Where a shape fits -/

theorem mem_hexSet {c : Char} (h : Hex.isLower c = true) : c ∈ hexSet :=
  Hex.forall_isLower (by decide) h

theorem fits_append {front rear : Shape} {xs ys : List Char} (h : xs.length = front.length) :
    fits (front ++ rear) (xs ++ ys) = (fits front xs && fits rear ys) := by
  induction front generalizing xs with
  | nil =>
      obtain rfl := List.length_eq_zero_iff.mp h
      rfl
  | cons set front ih =>
      cases xs with
      | nil => cases h
      | cons c xs =>
          simp only [List.cons_append, fits, ih (Nat.succ.inj h), Bool.and_assoc]

/-- The rear of a shape is held against what stands behind its front. -/
theorem fits_append_drop {front rear : Shape} {cs : List Char} :
    fits (front ++ rear) cs = (fits front cs && fits rear (cs.drop front.length)) := by
  induction front generalizing cs with
  | nil => rfl
  | cons set front ih =>
      cases cs with
      | nil => rfl
      | cons c cs => simp only [List.cons_append, fits, ih, Bool.and_assoc, List.length_cons,
          List.drop_succ_cons]

theorem fits_map_singleton {ds cs : List Char} : fits (ds.map ([·])) cs = true ↔ ds <+: cs := by
  induction ds generalizing cs with
  | nil => simp [fits]
  | cons d ds ih =>
      cases cs with
      | nil => simp [fits]
      | cons c cs =>
          rw [List.map_cons, fits, Bool.and_eq_true, ih, List.cons_prefix_cons]
          simp [@eq_comm _ c]

theorem fits_word {s : String} {cs : List Char} : (word s).fits cs = true ↔ s.toList <+: cs :=
  fits_map_singleton

/-- So many digits fit, with others behind them or not. -/
theorem fits_digits {n : Nat} {cs : List Char} (hlen : n ≤ cs.length)
    (h : ∀ c ∈ cs, Hex.isLower c = true) : fits (List.replicate n hexSet) cs = true := by
  induction n generalizing cs with
  | zero => rfl
  | succ n ih =>
      cases cs with
      | nil => cases hlen
      | cons c cs =>
          rw [List.forall_mem_cons] at h
          simp [List.replicate_succ, fits, mem_hexSet h.1, ih (Nat.le_of_succ_le_succ hlen) h.2]

/-! ### Steps of a scan -/

theorem foundFrom_skip {c : Char} {rest : List Char} (h : shape.fits (c :: rest) = false) :
    shape.foundFrom 0 (c :: rest) = shape.foundFrom 0 rest := by
  simp [foundFrom, h]

theorem foundFrom_pass (xs rest : List Char) :
    shape.foundFrom xs.length (xs ++ rest) = shape.foundFrom 0 rest := by
  induction xs with
  | nil => rfl
  | cons x xs ih => exact ih

/-- A piece that fits is found, and the scan goes on behind it. -/
theorem foundFrom_of_fits {piece : List Char} (hlen : piece.length = shape.length)
    (hne : piece ≠ []) (h : shape.fits piece = true) (rest : List Char) :
    shape.foundFrom 0 (piece ++ rest) = piece :: shape.foundFrom 0 rest := by
  have hfits : shape.fits (piece ++ rest) = true := by
    rw [← List.append_nil shape, fits_append hlen, h]
    rfl
  cases piece with
  | nil => exact absurd rfl hne
  | cons c cs =>
      rw [List.cons_append] at hfits ⊢
      rw [foundFrom, if_pos hfits, ← hlen, ← List.cons_append, List.take_left, List.length_cons,
        Nat.add_sub_cancel, foundFrom_pass]

/-- Only the place of the first fit matters to a search for it. -/
theorem first?_append {front cs : List Char}
    (h : ∀ q < front.length, shape.fits ((front ++ cs).drop q) = false) :
    shape.first? (front ++ cs) = shape.first? cs := by
  induction front with
  | nil => rfl
  | cons c front ih =>
      have hfits : shape.fits (c :: (front ++ cs)) = false := h 0 (Nat.succ_pos _)
      rw [List.cons_append, first?, hfits, if_neg Bool.false_ne_true]
      exact ih fun q hq => h (q + 1) (Nat.succ_lt_succ hq)

theorem first?_of_fits {cs : List Char} (hne : cs ≠ []) (h : shape.fits cs = true) :
    shape.first? cs = some (cs.take shape.length) := by
  cases cs with
  | nil => exact absurd rfl hne
  | cons c cs => rw [first?, if_pos h]

/-! ### Clashes -/

/-- Whether the outline names, at some place, a character that the shape does not allow there. -/
def clashes : Shape → Outline → Bool
  | set :: shape, some c :: outline => !set.contains c || clashes shape outline
  | _ :: shape, none :: outline => clashes shape outline
  | _, _ => false

/-- Whether the shape clashes with every rear part of the outline. -/
def avoids (shape : Shape) : Outline → Bool
  | [] => true
  | o :: outline => shape.clashes (o :: outline) && shape.avoids outline

theorem fits_of_clashes {outline : Outline} {cs : List Char} (hd : outline.Describes cs)
    (hc : shape.clashes outline = true) (rest : List Char) : shape.fits (cs ++ rest) = false := by
  induction shape generalizing outline cs with
  | nil => simp [clashes] at hc
  | cons set shape ih =>
      cases hd with
      | nil => simp [clashes] at hc
      | @cons o c outline cs ho hd =>
          rw [List.cons_append, fits]
          cases o with
          | none => rw [ih hd hc, Bool.and_false]
          | some d =>
              obtain rfl : d = c := ho d rfl
              rcases Bool.or_eq_true_iff.mp hc with hset | hc
              · rw [(Bool.not_eq_true' _).mp hset, Bool.false_and]
              · rw [ih hd hc, Bool.and_false]

/-- A scan finds nothing in a text that the shape clashes with at every place. -/
theorem foundFrom_of_avoids {outline : Outline} {cs : List Char} (hd : outline.Describes cs)
    (ha : shape.avoids outline = true) (rest : List Char) :
    shape.foundFrom 0 (cs ++ rest) = shape.foundFrom 0 rest := by
  induction hd with
  | nil => rfl
  | cons ho hd ih =>
      obtain ⟨hc, ha⟩ := Bool.and_eq_true_iff.mp ha
      have hfits := fits_of_clashes (.cons ho hd) hc rest
      rw [List.cons_append] at hfits ⊢
      rw [foundFrom_skip hfits, ih ha]

/-- A scan finds nothing in a known text that the shape clashes with at every place. -/
theorem foundFrom_known {cs : List Char} (ha : shape.avoids (.known cs) = true)
    (rest : List Char) : shape.foundFrom 0 (cs ++ rest) = shape.foundFrom 0 rest :=
  foundFrom_of_avoids (Outline.describes_known cs) ha rest

end Shape

end ContractSurvey.Bytecode
