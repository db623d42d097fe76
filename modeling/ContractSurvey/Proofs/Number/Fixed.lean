import ContractSurvey.Number.Reading
import ContractSurvey.Proofs.Json.Numeral
import ContractSurvey.Proofs.Number.Bound
import ContractSurvey.Proofs.Sequence.Outcome

/-!
# Proofs — Number — Fixed

Numbers with a fixed number of places.  A rounded quotient is off by at most half the divisor
(`roundDiv_mul_error`).  What is written with these places is a whole number of steps
(`fixed_eq`), and read as a decimal it is that number again (`decimal?_placed`).  A whole number
below `2 ^ 53` divided by a power of two is a double itself (`magnitude_quotient`), so the text of
such a quotient rounds once, from the exact quotient (`fixed_quotient`).
-/

namespace ContractSurvey

/-! ### Rounded quotients -/

theorem le_roundDiv_of_mul_le {n d k : Nat} (hd : 0 < d) (h : k * d ≤ n) : k ≤ roundDiv n d := by
  rw [← roundDiv_mul k hd]
  exact roundDiv_mono d h

theorem roundDiv_le_of_le_mul {n d k : Nat} (hd : 0 < d) (h : n ≤ k * d) : roundDiv n d ≤ k := by
  rw [← roundDiv_mul k hd]
  exact roundDiv_mono d h

/-- A rounded quotient is off by at most half the divisor. -/
theorem roundDiv_mul_error (n : Nat) {d : Nat} (hd : 0 < d) :
    2 * (roundDiv n d * d) ≤ 2 * n + d ∧ 2 * n ≤ 2 * (roundDiv n d * d) + d := by
  have hn := Nat.div_add_mod' n d
  have hmod := Nat.mod_lt n hd
  have hcases : roundDiv n d = n / d ∧ 2 * (n % d) ≤ d ∨
      roundDiv n d = n / d + 1 ∧ d ≤ 2 * (n % d) := by
    unfold roundDiv
    grind
  rcases hcases with ⟨hround, hrest⟩ | ⟨hround, hrest⟩
  · rw [hround]
    omega
  · rw [hround, Nat.succ_mul (n / d)]
    omega

/-! ### Digits that are read -/

namespace Reading

variable {ds es : List Char}

theorem decimalValue?_of_isDigit {c : Char} (h : c.isDigit = true) :
    Text.decimalValue? c = some (c.toNat - '0'.toNat) := by
  have hascii : c.toNat < 128 := by
    simp only [Char.isDigit, Bool.and_eq_true, decide_eq_true_eq] at h
    exact Nat.lt_of_le_of_lt (UInt32.le_iff_toNat_le.mp h.2) (by decide)
  rw [Text.decimalValue?, if_pos hascii, if_pos h]
  rfl

theorem digits?_of_isDigits (h : Json.IsDigits ds) :
    digits? ds = some (Nat.ofDigitChars 10 ds 0) := by
  have hempty : ds.isEmpty = false := List.isEmpty_eq_false_iff.mpr h.1
  have hvalues : ds.mapM Text.decimalValue? = some (ds.map fun c => c.toNat - '0'.toNat) := by
    rw [mapM_eq_some_iff, List.forall₂_map_right_iff, List.forall₂_same]
    exact fun c hc => decimalValue?_of_isDigit (h.2 c hc)
  rw [digits?, if_pos (List.all_eq_true.mpr h.2), Text.decimalNumber?, hempty, hvalues,
    Nat.ofDigitChars_eq_foldl, Option.map_some, List.foldl_map]
  rfl

/-- Digits alone write a whole number. -/
theorem decimal?_digits (h : Json.IsDigits ds) :
    decimal? ds = some (Nat.ofDigitChars 10 ds 0, 0) := by
  have htake : ds.takeWhile Char.isDigit = ds := List.takeWhile_eq_self_iff.mpr h.2
  have hdrop : ds.dropWhile Char.isDigit = [] := List.dropWhile_eq_nil_iff.mpr h.2
  simp [decimal?, htake, hdrop, digits?_of_isDigits h, exponent?]

/-- Every digit behind the point takes one from the power of ten. -/
theorem decimal?_point (hds : Json.IsDigits ds) (hes : ∀ c ∈ es, c.isDigit = true) :
    decimal? (ds ++ '.' :: es) = some (Nat.ofDigitChars 10 (ds ++ es) 0, -(es.length : Int)) := by
  have hpoint : Char.isDigit '.' = false := by decide
  have htake : (ds ++ '.' :: es).takeWhile Char.isDigit = ds := by
    rw [List.takeWhile_append_of_pos hds.2, List.takeWhile_cons_of_neg (by simp [hpoint]),
      List.append_nil]
  have hdrop : (ds ++ '.' :: es).dropWhile Char.isDigit = '.' :: es := by
    rw [List.dropWhile_append_of_pos hds.2, List.dropWhile_cons_of_neg (by simp [hpoint])]
  have htake' : es.takeWhile Char.isDigit = es := List.takeWhile_eq_self_iff.mpr hes
  have hdrop' : es.dropWhile Char.isDigit = [] := List.dropWhile_eq_nil_iff.mpr hes
  have hall : Json.IsDigits (ds ++ es) :=
    ⟨List.append_ne_nil_of_left_ne_nil hds.1 _, List.forall_mem_append.mpr ⟨hds.2, hes⟩⟩
  simp [decimal?, htake, hdrop, htake', hdrop', digits?_of_isDigits hall, exponent?]

end Reading

namespace Binary64

/-! ### Fixed places -/

/-- The digits of a number that is counted in steps of this many places. -/
def placed (places k : Nat) : List Char :=
  let fraction := Nat.toDigits 10 (k % 10 ^ places)
  Nat.toDigits 10 (k / 10 ^ places) ++
    '.' :: (List.replicate (places - fraction.length) '0' ++ fraction)

theorem fixed_eq {places : Nat} {x : Binary64} (hx : x.Unsigned) :
    x.fixed places =
      String.ofList (placed places (roundDiv (x.magnitude * 10 ^ places) one)) := by
  obtain ⟨hfinite, hsign⟩ := hx
  cases x with
  | nan => cases hfinite
  | infinite s => cases hfinite
  | finite s m e h =>
      obtain rfl : s = false := hsign
      simp only [fixed, signText, magnitude, placed, Nat.pow_eq]
      apply String.toList_injective
      simp

theorem isDigit_of_mem_fraction {places k : Nat} {c : Char}
    (h : c ∈ List.replicate (places - (Nat.toDigits 10 k).length) '0' ++ Nat.toDigits 10 k) :
    c.isDigit = true := by
  rcases List.mem_append.mp h with h | h
  · rw [List.eq_of_mem_replicate h]
    rfl
  · exact (Json.isDigits_toDigits k).2 c h

theorem isDigit_or_point_of_mem_placed {places k : Nat} {c : Char} (h : c ∈ placed places k) :
    c.isDigit = true ∨ c = '.' := by
  rcases List.mem_append.mp h with h | h
  · exact .inl ((Json.isDigits_toDigits _).2 c h)
  · rcases List.mem_cons.mp h with rfl | h
    · exact .inr rfl
    · exact .inl (isDigit_of_mem_fraction h)

/-- With the zeros in front of it the fraction has as many digits as there are places. -/
theorem decimal?_placed {places : Nat} (hplaces : 0 < places) (k : Nat) :
    Reading.decimal? (placed places k) = some (k, -(places : Int)) := by
  have hwhole := Json.isDigits_toDigits (k / 10 ^ places)
  have hlength : (Nat.toDigits 10 (k % 10 ^ places)).length ≤ places :=
    (Nat.length_toDigits_le_iff (by decide) hplaces).mpr (Nat.mod_lt _ (Nat.pow_pos (by decide)))
  rw [placed, Reading.decimal?_point hwhole fun _ => isDigit_of_mem_fraction, List.length_append,
    List.length_replicate, Nat.sub_add_cancel hlength, Nat.ofDigitChars_append,
    Nat.ofDigitChars_ten_toDigits, Nat.ofDigitChars_append, Nat.ofDigitChars_replicate_zero,
    Nat.ofDigitChars_eq_ofDigitChars_zero, Nat.ofDigitChars_ten_toDigits, ← Nat.mul_assoc,
    ← Nat.pow_add, Nat.add_comm _ (places - _), Nat.sub_add_cancel hlength, Nat.div_add_mod]

/-! ### Quotients that are doubles -/

/-- A whole number of at most 53 bits is divided by a power of two without rounding. -/
theorem magnitude_quotient {n j : Nat} (hn : n < 2 ^ 53) (hj : j ≤ 1074) :
    (ofRatio n (2 ^ j)).Unsigned ∧ (ofRatio n (2 ^ j)).magnitude * 2 ^ j = n * one := by
  rw [ofRatio_natCast]
  have hone : one = 2 ^ (1074 - j) * 2 ^ j := by
    calc one = 2 ^ 0 * one := (Nat.one_mul one).symm
      _ = 2 ^ (0 + 1074) := two_pow_mul_one 0
      _ = 2 ^ (1074 - j + j) := congrArg _ (by omega)
      _ = 2 ^ (1074 - j) * 2 ^ j := Nat.pow_add 2 _ j
  have hrounded : rounded (n * one) (2 ^ j) = n * 2 ^ (1074 - j) := by
    calc rounded (n * one) (2 ^ j)
        = rounded (n * 2 ^ (1074 - j) * 2 ^ j) (1 * 2 ^ j) := by
          rw [hone, ← Nat.mul_assoc, Nat.one_mul]
      _ = rounded (n * 2 ^ (1074 - j)) 1 := rounded_mul_mul_right _ _ (Nat.two_pow_pos j)
      _ = n * 2 ^ (1074 - j) := rounded_mul_two_pow (Nat.le_of_lt hn) _
  have hrange {k : Nat} (hk : 2098 ≤ k) : n * 2 ^ (1074 - j) ≤ Nat.pow 2 k := by
    calc n * 2 ^ (1074 - j) ≤ 2 ^ 53 * 2 ^ (1074 - j) := Nat.mul_le_mul_right _ (Nat.le_of_lt hn)
      _ = 2 ^ (53 + (1074 - j)) := (Nat.pow_add 2 53 _).symm
      _ ≤ Nat.pow 2 k := Nat.pow_le_pow_right Nat.two_pos (by omega)
  have hbelow : n < 2 ^ 53 * 2 ^ j :=
    Nat.lt_of_lt_of_le hn (Nat.le_mul_of_pos_right _ (Nat.two_pow_pos j))
  refine ⟨⟨isFinite_nearest_mul_one false (by decide) hbelow, isNegative_nearest _ _ _⟩, ?_⟩
  rw [magnitude_nearest, hrounded]
  generalize hk : 2098 = k
  rw [Nat.min_eq_left (hrange (Nat.le_of_eq hk)), Nat.mul_assoc, ← hone]

/-- **The text of a quotient** is that of the exact quotient, rounded once. -/
theorem fixed_quotient {n j : Nat} (hn : n < 2 ^ 53) (hj : j ≤ 1074) (places : Nat) :
    (ofRatio n (2 ^ j)).fixed places =
      String.ofList (placed places (roundDiv (n * 10 ^ places) (2 ^ j))) := by
  obtain ⟨hunsigned, hmagnitude⟩ := magnitude_quotient hn hj
  have hround : roundDiv ((ofRatio n (2 ^ j)).magnitude * 10 ^ places) one =
      roundDiv (n * 10 ^ places) (2 ^ j) := by
    rw [← roundDiv_mul_mul_right _ one (Nat.two_pow_pos j), Nat.mul_right_comm, hmagnitude,
      Nat.mul_right_comm, Nat.mul_comm one, roundDiv_mul_mul_right _ _ one_pos]
  rw [fixed_eq hunsigned, hround]

end Binary64

end ContractSurvey
