import ContractSurvey.Proofs.Number.Fixed
import ContractSurvey.Report.Size
import Mathlib.Algebra.Order.Field.Rat
import Mathlib.Tactic.FieldSimp
import Mathlib.Tactic.Linarith
import Mathlib.Tactic.Ring
import Mathlib.Tactic.NormNum

/-!
# Proofs — Report — Size

Sizes for a reader, read again.  `readSize?` takes a text apart into a decimal number and a unit and
says how many bytes they come to.  The text of a size below `2 ^ 53` says what the size comes to in
tenths of its unit, rounded once (`readSize?_bytesText`), so that it misses the size by at most half
a tenth, and below a kilobyte by nothing (`exists_tells`).

The main statement is `bytesText_mono`: the greater size never has the lesser text.  Within a unit
this is the order of rounding.  Two sizes of different units have the bytes of the greater unit
between them, which both texts respect (`shown_le`, `le_shown`): 1048575 bytes read `1024.0KB`, as
much as a megabyte and no more.
-/

namespace ContractSurvey

/-! ### Reading a size -/

/-- The units of written sizes. -/
inductive SizeUnit where
  | byte
  | kilobyte
  | megabyte
  deriving DecidableEq, Repr

namespace SizeUnit

def all : List SizeUnit := [.byte, .kilobyte, .megabyte]

def label : SizeUnit → String
  | .byte => "B"
  | .kilobyte => "KB"
  | .megabyte => "MB"

/-- The bytes in a unit. -/
def bytes : SizeUnit → Nat
  | .byte => 1
  | .kilobyte => 1024
  | .megabyte => 1048576

theorem bytes_pos (u : SizeUnit) : 0 < u.bytes := by cases u <;> decide

/-- The greatest unit that is no greater than the size. -/
def of (s : Nat) : SizeUnit :=
  if s < 1024 then .byte else if s < 1048576 then .kilobyte else .megabyte

theorem of_spec (s : Nat) :
    (s < 1024 ∧ of s = .byte) ∨
    (1024 ≤ s ∧ s < 1048576 ∧ of s = .kilobyte) ∨
    (1048576 ≤ s ∧ of s = .megabyte) := by
  unfold of
  grind

end SizeUnit

/-- The unit of a written size, and the bytes in all its units together. -/
def readSize? (text : String) : Option (SizeUnit × ℚ) := do
  let number := text.toList.takeWhile fun c => c.isDigit || c = '.'
  let unit ← SizeUnit.all.find? (·.label.toList = text.toList.drop number.length)
  let (coefficient, power) ← Reading.decimal? number
  return (unit, (coefficient : ℚ) * (10 : ℚ) ^ power * unit.bytes)

theorem readSize?_append {cs : List Char} {coefficient : Nat} {power : Int}
    (hcs : ∀ c ∈ cs, c.isDigit = true ∨ c = '.')
    (h : Reading.decimal? cs = some (coefficient, power)) (u : SizeUnit) :
    readSize? (String.ofList cs ++ u.label) =
      some (u, (coefficient : ℚ) * (10 : ℚ) ^ power * u.bytes) := by
  have htext : (String.ofList cs ++ u.label).toList = cs ++ u.label.toList := by simp
  have hnumber : (cs ++ u.label.toList).takeWhile (fun c => c.isDigit || c = '.') = cs := by
    rw [List.takeWhile_append_of_pos (by simpa using hcs)]
    cases u <;> simp [SizeUnit.label]
  have hunit : SizeUnit.all.find? (·.label.toList = u.label.toList) = some u := by
    cases u <;> decide
  simp [readSize?, htext, hnumber, hunit, h]

/-! ### Tenths of a unit -/

variable {s t : Nat}

/-- The tenths of its unit that a size is rounded to. -/
def tenths (s : Nat) : Nat := roundDiv (s * 10) (SizeUnit.of s).bytes

/-- What the text says, in tenths of a byte. -/
def shown (s : Nat) : Nat := tenths s * (SizeUnit.of s).bytes

theorem tenths_of_byte (h : SizeUnit.of s = .byte) : tenths s = s * 10 := by
  rw [tenths, h]
  simpa [SizeUnit.bytes] using roundDiv_mul (s * 10) Nat.one_pos

/-- From one unit to another, a size passes the bytes of the greater unit. -/
theorem between_of_ne (h : s ≤ t) (hne : SizeUnit.of s ≠ SizeUnit.of t) :
    s ≤ (SizeUnit.of t).bytes ∧ (SizeUnit.of t).bytes ≤ t ∧
      (SizeUnit.of s).bytes ∣ (SizeUnit.of t).bytes := by
  rcases SizeUnit.of_spec s with ⟨hs, hu⟩ | ⟨hs, hs', hu⟩ | ⟨hs, hu⟩ <;>
    rcases SizeUnit.of_spec t with ⟨ht, hv⟩ | ⟨ht, ht', hv⟩ | ⟨ht, hv⟩ <;>
    simp only [hu, hv, SizeUnit.bytes, ne_eq, not_true_eq_false] at hne ⊢ <;> omega

theorem shown_le {b : Nat} (hdvd : (SizeUnit.of s).bytes ∣ b) (h : s ≤ b) : shown s ≤ b * 10 := by
  obtain ⟨k, rfl⟩ := hdvd
  have htenths : tenths s ≤ k * 10 :=
    roundDiv_le_of_le_mul (SizeUnit.bytes_pos _) (by linarith)
  calc shown s ≤ k * 10 * (SizeUnit.of s).bytes := Nat.mul_le_mul_right _ htenths
    _ = (SizeUnit.of s).bytes * k * 10 := by ring

theorem le_shown {b : Nat} (hdvd : (SizeUnit.of s).bytes ∣ b) (h : b ≤ s) : b * 10 ≤ shown s := by
  obtain ⟨k, rfl⟩ := hdvd
  have htenths : k * 10 ≤ tenths s :=
    le_roundDiv_of_mul_le (SizeUnit.bytes_pos _) (by linarith)
  calc (SizeUnit.of s).bytes * k * 10 = k * 10 * (SizeUnit.of s).bytes := by ring
    _ ≤ shown s := Nat.mul_le_mul_right _ htenths

/-- **The greater size says as much or more.** -/
theorem shown_mono (h : s ≤ t) : shown s ≤ shown t := by
  by_cases hunit : SizeUnit.of s = SizeUnit.of t
  · unfold shown tenths
    rw [hunit]
    exact Nat.mul_le_mul_right _ (roundDiv_mono _ (Nat.mul_le_mul_right 10 h))
  · obtain ⟨hs, ht, hdvd⟩ := between_of_ne h hunit
    exact (shown_le hdvd hs).trans (le_shown (Nat.dvd_refl _) ht)

/-! ### Texts -/

/-- Divided by a unit, a size has the text of its tenths. -/
theorem quotient_eq {j : Nat} (hs : s < 2 ^ 53) (hj : j ≤ 1074) :
    ∃ x, Binary64.quotient s (2 ^ j) = .ok x ∧
      x.fixed 1 = String.ofList (Binary64.placed 1 (roundDiv (s * 10) (2 ^ j))) :=
  ⟨_, Binary64.quotient_eq_ok_iff.mpr ⟨rfl, (Binary64.magnitude_quotient hs hj).1.1⟩,
    Binary64.fixed_quotient hs hj 1⟩

/-- The number before the unit: whole below a kilobyte, with one place from there on. -/
def numberOf (s : Nat) : List Char :=
  if SizeUnit.of s = .byte then Nat.toDigits 10 s else Binary64.placed 1 (tenths s)

theorem sizeText_eq (hs : s < 2 ^ 53) :
    sizeText s = .ok (String.ofList (numberOf s) ++ (SizeUnit.of s).label) := by
  rw [numberOf, tenths]
  rcases SizeUnit.of_spec s with ⟨hlt, hu⟩ | ⟨hge, hlt, hu⟩ | ⟨hge, hu⟩
  · have hbyte : (s : Int) < kilobyte := by simp only [kilobyte]; omega
    have hshort : Whole.IsShort s :=
      Whole.isShort_of_natAbs_lt (k := 16) (by decide) (hs.trans (by decide))
    rw [sizeText, if_pos hbyte, countText, Whole.text_eq_ok_iff.mpr ⟨hshort, rfl⟩, hu]
    rfl
  · have hbyte : ¬ (s : Int) < kilobyte := by simp only [kilobyte]; omega
    have hkilo : (s : Int) < megabyte := by simp only [megabyte]; omega
    obtain ⟨x, hx, hfixed⟩ := quotient_eq (j := 10) hs (by decide)
    have hquotient : Binary64.quotient s kilobyte = .ok x := hx
    rw [sizeText, if_neg hbyte, if_pos hkilo, hu, hquotient]
    exact congrArg (fun t => Except.ok (t ++ "KB")) hfixed
  · have hbyte : ¬ (s : Int) < kilobyte := by simp only [kilobyte]; omega
    have hkilo : ¬ (s : Int) < megabyte := by simp only [megabyte]; omega
    obtain ⟨x, hx, hfixed⟩ := quotient_eq (j := 20) hs (by decide)
    have hquotient : Binary64.quotient s megabyte = .ok x := hx
    rw [sizeText, if_neg hbyte, if_neg hkilo, hu, hquotient]
    exact congrArg (fun t => Except.ok (t ++ "MB")) hfixed

theorem isDigit_or_point_of_mem_numberOf {c : Char} (h : c ∈ numberOf s) :
    c.isDigit = true ∨ c = '.' := by
  unfold numberOf at h
  split at h
  · exact .inl ((Json.isDigits_toDigits s).2 c h)
  · exact Binary64.isDigit_or_point_of_mem_placed h

theorem decimal?_numberOf (s : Nat) : ∃ coefficient power,
    Reading.decimal? (numberOf s) = some (coefficient, power) ∧
      (coefficient : ℚ) * (10 : ℚ) ^ power * (SizeUnit.of s).bytes = (shown s : ℚ) / 10 := by
  unfold numberOf shown
  split
  · next hu =>
      refine ⟨s, 0, ?_, ?_⟩
      · simpa using Reading.decimal?_digits (Json.isDigits_toDigits s)
      · rw [tenths_of_byte hu]
        push_cast
        field_simp
  · refine ⟨tenths s, -1, Binary64.decimal?_placed Nat.one_pos _, ?_⟩
    push_cast
    field_simp

/-- The text of a size reads as its unit and its tenths. -/
theorem readSize?_bytesText (hs : s < 2 ^ 53) : ∃ text, bytesText (.whole s) = .ok text ∧
    readSize? text = some (SizeUnit.of s, (shown s : ℚ) / 10) := by
  obtain ⟨coefficient, power, hnumber, hvalue⟩ := decimal?_numberOf s
  refine ⟨String.ofList (numberOf s) ++ (SizeUnit.of s).label, ?_, ?_⟩
  · exact sizeText_eq hs
  · rw [readSize?_append (fun _ => isDigit_or_point_of_mem_numberOf) hnumber, hvalue]

/-! ### What a text tells -/

/-- What the text of a size tells: a number of bytes, to half a tenth of the greatest unit that the
size comes to. -/
structure Tells (s : Nat) (text : String) (u : SizeUnit) (x : ℚ) : Prop where
  text_eq : bytesText (.whole s) = .ok text
  read_eq : readSize? text = some (u, x)
  unit_eq : u = SizeUnit.of s
  error : |x - s| ≤ (u.bytes : ℚ) / 20
  exact : u = .byte → x = s

theorem exists_tells (hs : s < 2 ^ 53) :
    ∃ text, Tells s text (SizeUnit.of s) ((shown s : ℚ) / 10) := by
  obtain ⟨text, htext, hread⟩ := readSize?_bytesText hs
  obtain ⟨hle, hge⟩ := roundDiv_mul_error (s * 10) (SizeUnit.bytes_pos (SizeUnit.of s))
  have hle' : (2 * shown s : ℚ) ≤ 2 * (s * 10) + (SizeUnit.of s).bytes := by exact_mod_cast hle
  have hge' : (2 * (s * 10) : ℚ) ≤ 2 * shown s + (SizeUnit.of s).bytes := by exact_mod_cast hge
  refine ⟨text, htext, hread, rfl, ?_, fun hu => ?_⟩
  · rw [abs_le]
    constructor <;> linarith
  · rw [shown, tenths_of_byte hu, hu]
    simp [SizeUnit.bytes]

/-- **Sizes for a reader keep their order.**  Of two sizes below `2 ^ 53` the greater one has a text
that tells as many bytes or more, and each text tells its size to a twentieth of the unit, whole
bytes exactly. -/
theorem bytesText_mono {s t : Nat} (h : s ≤ t) (ht : t < 2 ^ 53) : ∃ text text' u v x y,
    Tells s text u x ∧ Tells t text' v y ∧ x ≤ y := by
  obtain ⟨text, htext⟩ := exists_tells (Nat.lt_of_le_of_lt h ht)
  obtain ⟨text', htext'⟩ := exists_tells ht
  have hshown : (shown s : ℚ) ≤ shown t := by exact_mod_cast shown_mono h
  exact ⟨text, text', _, _, _, _, htext, htext', by linarith⟩

/-- The last size in kilobytes has a text that tells as much as that of the first megabyte. -/
theorem bytesText_mono_megabyte : 1048575 ≤ 1048576 ∧ 1048576 < 2 ^ 53 ∧ ∃ u v x y,
    Tells 1048575 "1024.0KB" u x ∧ Tells 1048576 "1.0MB" v y ∧ x ≤ y := by
  have hle : 1048575 ≤ 1048576 := by decide
  have hlt : 1048576 < 2 ^ 53 := by decide
  have hkilo : bytesText (.whole (1048575 : Nat)) = .ok "1024.0KB" := by decide +kernel
  have hmega : bytesText (.whole (1048576 : Nat)) = .ok "1.0MB" := by decide +kernel
  obtain ⟨text, text', u, v, x, y, hs, ht, hxy⟩ := bytesText_mono hle hlt
  obtain rfl : "1024.0KB" = text := Except.ok.inj (hkilo.symm.trans hs.text_eq)
  obtain rfl : "1.0MB" = text' := Except.ok.inj (hmega.symm.trans ht.text_eq)
  exact ⟨hle, hlt, u, v, x, y, hs, ht, hxy⟩

end ContractSurvey
