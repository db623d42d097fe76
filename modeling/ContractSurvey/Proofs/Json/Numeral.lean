import ContractSurvey.Json.Printer
import ContractSurvey.Proofs.Json.Grammar
import ContractSurvey.Proofs.Number.Decimal
import Mathlib.Data.List.Basic
import Mathlib.Data.List.TakeWhile

/-!
# Proofs — Json — Numeral

Written numbers are numerals: a whole number is the numeral of its digits (`exists_numeral_int`),
and a finite double the numeral of the fewest digits that read back to it
(`exists_numeral_float`).

The digits of a decimal are written without the zeros at their end, and then with a point or an
exponent put where the power of the first digit says.  `ofDecimal_kept` takes the zeros off; each
form of the layout is a numeral by itself.
-/

namespace ContractSurvey.Json

/-! ### Digits -/

theorem isDigits_toDigits (n : Nat) : IsDigits (Nat.toDigits 10 n) :=
  ⟨Nat.toDigits_ne_nil, fun _ h => Nat.isDigit_of_mem_toDigits (by decide) (by decide) h⟩

@[simp] theorem ofDigits_toDigits (n : Nat) : ofDigits (Nat.toDigits 10 n) = n :=
  Nat.ofDigitChars_ten_toDigits

/-- Only zero is written with a zero in front. -/
theorem head?_toDigits {n : Nat} (hn : n ≠ 0) : (Nat.toDigits 10 n).head? ≠ some '0' := by
  induction n using Nat.strongRecOn with
  | ind n ih =>
      by_cases hsmall : n < 10
      · rw [Nat.toDigits_of_lt_base hsmall]
        have hdigits : ∀ k < 10, k ≠ 0 → Nat.digitChar k ≠ '0' := by decide
        simpa using hdigits n hsmall hn
      · rw [Nat.toDigits_of_base_le (by decide) (by omega),
          List.head?_append_of_ne_nil _ Nat.toDigits_ne_nil]
        exact ih (n / 10) (by omega) (by omega)

theorem noLeadingZero_toDigits (n : Nat) :
    (Nat.toDigits 10 n).length = 1 ∨ (Nat.toDigits 10 n).head? ≠ some '0' := by
  by_cases hn : n = 0
  · exact .inl (by rw [hn]; rfl)
  · exact .inr (head?_toDigits hn)

@[simp] theorem ofDigits_append_zeros (ds : List Char) (z : Nat) :
    ofDigits (ds ++ List.replicate z '0') = ofDigits ds * 10 ^ z := by
  rw [ofDigits, Nat.ofDigitChars_append, Nat.ofDigitChars_replicate_zero, Nat.mul_comm, ofDigits]

@[simp] theorem ofDigits_zeros_append (z : Nat) (ds : List Char) :
    ofDigits (List.replicate z '0' ++ ds) = ofDigits ds := by
  rw [ofDigits, Nat.ofDigitChars_append, Nat.ofDigitChars_replicate_zero, Nat.mul_zero, ofDigits]

/-- Digits without the zeros at their end. -/
def kept (ds : List Char) : List Char := (ds.reverse.dropWhile (· == '0')).reverse

theorem exists_kept_append (ds : List Char) : ∃ z, ds = kept ds ++ List.replicate z '0' := by
  refine ⟨(ds.reverse.takeWhile (· == '0')).length, ?_⟩
  have hzeros : ds.reverse.takeWhile (· == '0') =
      List.replicate (ds.reverse.takeWhile (· == '0')).length '0' :=
    List.eq_replicate_of_mem fun c hc => by simpa using List.mem_takeWhile_imp hc
  have hsplit := congrArg List.reverse (List.takeWhile_append_dropWhile (p := (· == '0'))
    (l := ds.reverse))
  rw [List.reverse_append, List.reverse_reverse, hzeros, List.reverse_replicate] at hsplit
  exact hsplit.symm

theorem kept_toDigits_ne_nil {n : Nat} (hn : n ≠ 0) : kept (Nat.toDigits 10 n) ≠ [] := by
  intro h
  obtain ⟨z, hz⟩ := exists_kept_append (Nat.toDigits 10 n)
  rw [h, List.nil_append] at hz
  have hread := congrArg ofDigits hz
  rw [ofDigits_toDigits, ← List.nil_append (List.replicate z '0'), ofDigits_append_zeros] at hread
  exact hn (hread.trans (Nat.zero_mul _))

theorem isDigits_kept {n : Nat} (hn : n ≠ 0) : IsDigits (kept (Nat.toDigits 10 n)) := by
  refine ⟨kept_toDigits_ne_nil hn, fun c hc => (isDigits_toDigits n).2 c ?_⟩
  obtain ⟨z, hz⟩ := exists_kept_append (Nat.toDigits 10 n)
  rw [hz]
  exact List.mem_append_left _ hc

theorem head?_kept {n : Nat} (hn : n ≠ 0) : (kept (Nat.toDigits 10 n)).head? ≠ some '0' := by
  obtain ⟨z, hz⟩ := exists_kept_append (Nat.toDigits 10 n)
  have hhead := head?_toDigits hn
  rwa [hz, List.head?_append_of_ne_nil _ (kept_toDigits_ne_nil hn)] at hhead

/-- The power of ten of the first digit. -/
def leading (c : Nat) (e : Int) : Int := (Nat.toDigits 10 c).length + e - 1

/-- A decimal by the digits that are kept and the power of its first digit. -/
theorem ofDecimal_kept (s : Bool) (c : Nat) (e : Int) :
    Binary64.ofDecimal s c e = Binary64.ofDecimal s (ofDigits (kept (Nat.toDigits 10 c)))
      (leading c e + 1 - (kept (Nat.toDigits 10 c)).length) := by
  obtain ⟨z, hz⟩ := exists_kept_append (Nat.toDigits 10 c)
  have hlength := congrArg List.length hz
  have hread := congrArg ofDigits hz
  rw [List.length_append, List.length_replicate] at hlength
  rw [ofDigits_toDigits, ofDigits_append_zeros] at hread
  have he : leading c e + 1 - (kept (Nat.toDigits 10 c)).length - z = e := by
    unfold leading
    omega
  have hshift := Binary64.ofDecimal_mul_pow s (ofDigits (kept (Nat.toDigits 10 c)))
    (leading c e + 1 - (kept (Nat.toDigits 10 c)).length) z
  rwa [← hread, he] at hshift

/-! ### Forms of a decimal -/

/-- Digits with a point behind the first. -/
def pointed : List Char → List Char
  | [d] => [d]
  | d :: rest => d :: '.' :: rest
  | [] => []

section
variable {ds : List Char} (hds : IsDigits ds)
include hds

/-- The digits behind a point, after some zeros. -/
theorem exists_numeral_below (s : Bool) (z : Nat) : ∃ n : Numeral,
    n.chars = Numeral.signChars s ++ '0' :: '.' :: List.replicate z '0' ++ ds ∧
      n.value = .float (.ofDecimal s (ofDigits ds) (-(z + ds.length : Nat))) := by
  have hplaces : IsDigits (List.replicate z '0' ++ ds) := by
    refine ⟨by simp [hds.1], fun c hc => ?_⟩
    rcases List.mem_append.mp hc with hc | hc
    · exact List.eq_of_mem_replicate hc ▸ rfl
    · exact hds.2 c hc
  refine ⟨⟨s, ['0'], some (List.replicate z '0' ++ ds), none, by simp [IsDigits], .inl rfl, ?_⟩,
    ?_, ?_⟩
  · rintro _ ⟨⟩
    exact hplaces
  · simp [Numeral.chars, Numeral.placesChars, Numeral.powerChars]
  · have hread : ofDigits ('0' :: (List.replicate z '0' ++ ds)) = ofDigits ds :=
      ofDigits_zeros_append (z + 1) ds
    simp [Numeral.value, hread]

/-- A point after some digits, with zeros up to the point and one zero behind it if the digits do
not reach that far. -/
theorem exists_numeral_point (hhead : ds.head? ≠ some '0') (s : Bool) {w : Nat} (hw : 0 < w) :
    ∃ n : Numeral,
      n.chars = Numeral.signChars s ++ (ds.take w ++ List.replicate (w - ds.length) '0' ++
        '.' :: (if (ds.drop w).isEmpty then ['0'] else ds.drop w)) ∧
      n.value = .float (.ofDecimal s (ofDigits ds) (w - ds.length)) := by
  obtain ⟨places, hplaces⟩ :
      ∃ places, places = if (ds.drop w).isEmpty then ['0'] else ds.drop w := ⟨_, rfl⟩
  have htake : ds.take w ≠ [] := by simp [hds.1, Nat.ne_of_gt hw]
  have hwhole : IsDigits (ds.take w ++ List.replicate (w - ds.length) '0') := by
    refine ⟨by simp [htake], fun c hc => ?_⟩
    rcases List.mem_append.mp hc with hc | hc
    · exact hds.2 c (List.mem_of_mem_take hc)
    · exact List.eq_of_mem_replicate hc ▸ rfl
  have hbehind : IsDigits places := by
    rw [hplaces]
    split
    · simp [IsDigits]
    · next h => exact ⟨by simpa using h, fun c hc => hds.2 c (List.mem_of_mem_drop hc)⟩
  have hfirst : (ds.take w ++ List.replicate (w - ds.length) '0').head? ≠ some '0' := by
    rw [List.head?_append_of_ne_nil _ htake, List.head?_take, if_neg (Nat.ne_of_gt hw)]
    exact hhead
  refine ⟨⟨s, _, some places, none, hwhole, .inr hfirst, ?_⟩, ?_, ?_⟩
  · rintro _ ⟨⟩
    exact hbehind
  · simp [Numeral.chars, Numeral.placesChars, Numeral.powerChars, hplaces]
  · simp only [Numeral.value, Option.getD_some, Option.map_none, Option.getD_none, Int.zero_sub]
    congr 1
    by_cases hlong : ds.length ≤ w
    · have hzero : places = ['0'] := by simp [hplaces, hlong]
      have hdigits : ds ++ List.replicate (w - ds.length) '0' ++ ['0'] =
          ds ++ List.replicate (w - ds.length + 1) '0' := by
        rw [List.replicate_succ', List.append_assoc]
      rw [hzero, List.take_of_length_le hlong, hdigits, ofDigits_append_zeros,
        ← Binary64.ofDecimal_mul_pow s _ (w - ds.length : Int) (w - ds.length + 1)]
      congr 1
      simp only [List.length_singleton]
      omega
    · have hrest : places = ds.drop w := by
        rw [hplaces, if_neg (by simpa using hlong)]
      have hnone : w - ds.length = 0 := by omega
      rw [hrest, hnone, List.replicate_zero, List.append_nil, List.take_append_drop,
        List.length_drop]
      congr 1
      omega

/-- The power of the first digit as an exponent, and the other digits behind a point. -/
theorem exists_numeral_power (s : Bool) (p : Int) : ∃ n : Numeral,
    n.chars = Numeral.signChars s ++ (pointed ds ++ 'e' :: (if p < 0 then '-' else '+') ::
      List.replicate (2 - (Nat.toDigits 10 p.natAbs).length) '0' ++ Nat.toDigits 10 p.natAbs) ∧
      n.value = .float (.ofDecimal s (ofDigits ds) (p + 1 - ds.length)) := by
  have hdigits : IsDigits (List.replicate (2 - (Nat.toDigits 10 p.natAbs).length) '0' ++
      Nat.toDigits 10 p.natAbs) := by
    refine ⟨by simp, fun c hc => ?_⟩
    rcases List.mem_append.mp hc with hc | hc
    · exact List.eq_of_mem_replicate hc ▸ rfl
    · exact (isDigits_toDigits _).2 c hc
  obtain ⟨power, hchars, hvalue⟩ : ∃ power : Power,
      power.chars = 'e' :: (if p < 0 then '-' else '+') ::
        (List.replicate (2 - (Nat.toDigits 10 p.natAbs).length) '0' ++
          Nat.toDigits 10 p.natAbs) ∧ power.value = p := by
    by_cases hp : p < 0
    · refine ⟨⟨'e', .minus, _, .inl rfl, hdigits⟩, by simp [Power.chars, PowerSign.chars, hp], ?_⟩
      simp only [Power.value, ofDigits_zeros_append, ofDigits_toDigits]
      omega
    · refine ⟨⟨'e', .plus, _, .inl rfl, hdigits⟩, by simp [Power.chars, PowerSign.chars, hp], ?_⟩
      simp only [Power.value, ofDigits_zeros_append, ofDigits_toDigits]
      omega
  match ds, hds with
  | [], hds => exact absurd rfl hds.1
  | [d], hds =>
      refine ⟨⟨s, [d], none, some power, hds, .inl rfl, by simp⟩, ?_, ?_⟩
      · simp [Numeral.chars, Numeral.placesChars, Numeral.powerChars, hchars, pointed]
      · simp [Numeral.value, hvalue]
  | d :: d' :: rest, hds =>
      have hfirst : IsDigits [d] := ⟨by simp, fun c hc => hds.2 c (by simp_all)⟩
      have hrest : IsDigits (d' :: rest) := ⟨by simp, fun c hc => hds.2 c (by simp_all)⟩
      refine ⟨⟨s, [d], some (d' :: rest), some power, hfirst, .inl rfl, ?_⟩, ?_, ?_⟩
      · rintro _ ⟨⟩
        exact hrest
      · simp [Numeral.chars, Numeral.placesChars, Numeral.powerChars, hchars, pointed]
      · simp only [Numeral.value, hvalue, Option.map_some, Option.getD_some, List.cons_append,
          List.nil_append]
        congr 2
        simp only [List.length_cons]
        omega

end

/-! ### Written numbers -/

theorem toList_signText (s : Bool) : (Binary64.signText s).toList = Numeral.signChars s := by
  cases s <;> rfl

theorem exists_numeral_int (k : Int) :
    ∃ n : Numeral, n.chars = (toString k).toList ∧ n.value = .int k := by
  have hnatural (s : Bool) (m : Nat) : ∃ n : Numeral,
      n.chars = Numeral.signChars s ++ Nat.toDigits 10 m ∧
        n.value = .int (if s then -(m : Int) else m) := by
    refine ⟨⟨s, Nat.toDigits 10 m, none, none, isDigits_toDigits m, noLeadingZero_toDigits m,
      by simp⟩, ?_, ?_⟩
    · simp [Numeral.chars, Numeral.placesChars, Numeral.powerChars]
    · simp [Numeral.value]
  cases k with
  | ofNat m =>
      obtain ⟨n, hchars, hvalue⟩ := hnatural false m
      refine ⟨n, ?_, hvalue⟩
      show _ = (Nat.repr m).toList
      rw [hchars, Nat.repr_eq_ofList_toDigits, String.toList_ofList]
      rfl
  | negSucc m =>
      obtain ⟨n, hchars, hvalue⟩ := hnatural true (m + 1)
      refine ⟨n, ?_, hvalue⟩
      show _ = (Binary64.signText true ++ Nat.repr (m + 1)).toList
      rw [hchars, Nat.repr_eq_ofList_toDigits, String.toList_append, String.toList_ofList,
        toList_signText]

/-- Digits with a point or an exponent, given the power of the first digit. -/
def laid (ds : List Char) (p : Int) : List Char :=
  if -4 ≤ p ∧ p ≤ 15 then
    if p < 0 then '0' :: '.' :: List.replicate (-p - 1).toNat '0' ++ ds
    else
      ds.take (p.toNat + 1) ++ List.replicate (p.toNat + 1 - ds.length) '0' ++
        '.' :: (if (ds.drop (p.toNat + 1)).isEmpty then ['0'] else ds.drop (p.toNat + 1))
  else
    pointed ds ++ 'e' :: (if p < 0 then '-' else '+') ::
      List.replicate (2 - (Nat.toDigits 10 p.natAbs).length) '0' ++ Nat.toDigits 10 p.natAbs

theorem exists_numeral_laid {ds : List Char} (hds : IsDigits ds) (hhead : ds.head? ≠ some '0')
    (s : Bool) (p : Int) : ∃ n : Numeral, n.chars = Numeral.signChars s ++ laid ds p ∧
      n.value = .float (.ofDecimal s (ofDigits ds) (p + 1 - ds.length)) := by
  by_cases hplain : -4 ≤ p ∧ p ≤ 15
  · by_cases hp : p < 0
    · obtain ⟨n, hchars, hvalue⟩ := exists_numeral_below hds s (-p - 1).toNat
      refine ⟨n, by rw [hchars, laid, if_pos hplain, if_pos hp, List.append_assoc], ?_⟩
      rw [hvalue]
      congr 2
      omega
    · obtain ⟨n, hchars, hvalue⟩ := exists_numeral_point hds hhead s (Nat.succ_pos p.toNat)
      refine ⟨n, by rw [hchars, laid, if_pos hplain, if_neg hp], ?_⟩
      rw [hvalue]
      congr 2
      omega
  · obtain ⟨n, hchars, hvalue⟩ := exists_numeral_power hds s p
    exact ⟨n, by rw [hchars, laid, if_neg hplain], hvalue⟩

theorem exists_numeral_digits (s : Bool) {d : Decimal} (hd : d.coefficient ≠ 0) :
    ∃ n : Numeral, n.chars = Numeral.signChars s ++ Layout.json.digits d ∧
      n.value = .float (.ofDecimal s d.coefficient d.exponent) := by
  have hkept := isDigits_kept hd
  have hdigits : Layout.json.digits d = laid (if (kept (Nat.toDigits 10 d.coefficient)).isEmpty
      then ['0'] else kept (Nat.toDigits 10 d.coefficient))
      (leading d.coefficient d.exponent) := rfl
  rw [hdigits, if_neg (by simp [hkept.1]), ofDecimal_kept]
  exact exists_numeral_laid hkept (head?_kept hd) s _

/-- A finite double is written as a numeral of its value. -/
theorem exists_numeral_float {x : Binary64} (hx : x.isFinite = true) :
    ∃ n : Numeral, n.chars = (x.written .json).toList ∧ n.value = .float x := by
  cases x with
  | nan => cases hx
  | infinite s => cases hx
  | finite s m e h =>
      simp only [Binary64.written, String.toList_append, String.toList_ofList, toList_signText]
      by_cases hm : m = 0
      · subst hm
        obtain rfl : e = 0 := by simpa [Binary64.Canonical] using h.2.2
        obtain ⟨n, hchars, hvalue⟩ := exists_numeral_below (isDigits_toDigits 0) s 0
        have hzero : Layout.json.digits ⟨0, 0⟩ = '0' :: '.' :: Nat.toDigits 10 0 := by
          decide
        refine ⟨n, by rw [hchars, if_pos rfl, hzero, List.append_assoc]; rfl, ?_⟩
        rw [hvalue, ofDigits_toDigits, Binary64.ofDecimal_zero, Binary64.ofParts, dif_pos h]
      · rw [if_neg hm]
        have hread := Binary64.ofDecimalNumber_shortest h hm
        generalize Binary64.shortest (.finite false m e h) (m * Nat.pow 2 e) = d at *
        rw [Binary64.ofDecimalNumber] at hread
        have hd : d.coefficient ≠ 0 := by
          intro hzero
          rw [hzero, Binary64.ofDecimal_zero, Binary64.ofParts, dif_pos (by decide)] at hread
          injection hread with _ hzero
          exact hm hzero.symm
        have hvalue : Binary64.ofDecimal s d.coefficient d.exponent = .finite s m e h := by
          cases s with
          | false => exact hread
          | true =>
              have hneg := Binary64.neg_ofDecimal false d.coefficient d.exponent
              rw [hread] at hneg
              exact hneg.symm
        rw [← hvalue]
        exact exists_numeral_digits s hd

end ContractSurvey.Json
