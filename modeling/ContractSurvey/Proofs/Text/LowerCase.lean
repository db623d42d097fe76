import ContractSurvey.Text.Blank
import ContractSurvey.Text.Hex
import ContractSurvey.Text.LetterCase
import Mathlib.Data.List.Basic
import Mathlib.Data.List.TakeWhile

/-!
# Proofs — Text — LowerCase

Lower case and trimming on the texts of digits and marks.

* `lowerChars_of_ascii`: an ASCII text is put into lower case letter by letter.
* `ascii_of_lowerChars`: no letter beyond ASCII is put into lower case as hexadecimal digits and
  `x` alone, so a text that is one of these in lower case is an ASCII text.
* `lowerChars_of_isNumeral`, `trim_of_isNumeral`: lower-case digits and marks stay as they are.
* `isLower_toLower`, `trim_padded`, `trim_append`: digits of either case are put into lower case as
  digits, and trimming takes what is blank around them or at the end of what stands behind them.
-/

namespace ContractSurvey

/-! ### Lower-case digits -/

namespace Hex

theorem isLower_iff {c : Char} : isLower c = true ↔
    48 ≤ c.toNat ∧ c.toNat ≤ 57 ∨ 97 ≤ c.toNat ∧ c.toNat ≤ 102 := by
  simp [isLower, Char.le_def, UInt32.le_iff_toNat_le]

theorem isDigit_iff {c : Char} : isDigit c = true ↔
    isLower c = true ∨ 65 ≤ c.toNat ∧ c.toNat ≤ 70 := by
  rw [isDigit, value?, isLower]
  split
  · simp_all
  · split
    · simp_all
    · split
      · simp_all [Char.le_def, UInt32.le_iff_toNat_le]
      · simp_all [Char.le_def, UInt32.le_iff_toNat_le]

/-- What holds of the few characters that are checked holds of every lower-case digit. -/
theorem forall_isLower {P : Char → Prop}
    (h : ∀ n < 128, isLower (Char.ofNat n) = true → P (Char.ofNat n)) {c : Char}
    (hc : isLower c = true) : P c := by
  have hn := isLower_iff.mp hc
  rw [← Char.ofNat_toNat c] at hc ⊢
  exact h _ (by omega) hc

theorem isLower_digit : ∀ {n : Nat}, n < 16 → isLower (digit n) = true := by decide

theorem isLower_of_mem_ofBytes {bytes : List UInt8} {c : Char} (h : c ∈ ofBytes bytes) :
    isLower c = true := by
  obtain ⟨b, -, hc⟩ := List.mem_flatMap.mp h
  have hb : b.toNat < 256 := b.toNat_lt
  rcases List.mem_cons.mp hc with rfl | hc
  · exact isLower_digit (by omega)
  · rw [List.mem_singleton.mp hc]
    exact isLower_digit (by omega)

end Hex

namespace Text

/-! ### ASCII -/

theorem lowerChar_of_ascii {c : Char} (h : c.toNat < 128) : lowerChar c = [c.toLower] := if_pos h

/-- Lower case moves the capitals and leaves every other character as it is. -/
theorem toLower_cases (c : Char) :
    c.toLower = c ∧ (c.toNat < 65 ∨ 90 < c.toNat) ∨
      65 ≤ c.toNat ∧ c.toNat ≤ 90 ∧ c.toLower.toNat = c.toNat + 32 := by
  by_cases h : c.val ≥ 'A'.val ∧ c.val ≤ 'Z'.val
  · have hmoved : c.toLower.toNat = (c.val + ('a'.val - 'A'.val)).toNat :=
      congrArg Char.toNat (dif_pos h)
    simp only [ge_iff_le, UInt32.le_iff_toNat_le] at h
    have hle : c.val.toNat ≤ 90 := h.2
    have hshift : ('a'.val - 'A'.val).toNat = 32 := rfl
    rw [UInt32.toNat_add, hshift, Nat.mod_eq_of_lt (by omega)] at hmoved
    exact .inr ⟨h.1, h.2, hmoved⟩
  · have hsame : c.toLower = c := dif_neg h
    simp only [ge_iff_le, UInt32.le_iff_toNat_le] at h
    have hcode : ¬ (65 ≤ c.toNat ∧ c.toNat ≤ 90) := h
    exact .inl ⟨hsame, by omega⟩

theorem toLower_toLower (c : Char) : c.toLower.toLower = c.toLower := by
  rcases toLower_cases c.toLower with ⟨hsame, -⟩ | ⟨hge, hle, -⟩
  · exact hsame
  · -- nothing that is put into lower case is a capital
    rcases toLower_cases c with ⟨hc, hcode⟩ | ⟨hcapital, -, hcode⟩
    · rw [hc] at hge hle
      omega
    · omega

/-- A digit of either case is put into lower case as a digit. -/
theorem isLower_toLower {c : Char} (h : Hex.isDigit c = true) : Hex.isLower c.toLower = true := by
  rw [Hex.isDigit_iff, Hex.isLower_iff] at h
  rw [Hex.isLower_iff]
  rcases toLower_cases c with ⟨hc, hcode⟩ | ⟨hge, hle, hcode⟩
  · rw [hc]
    omega
  · omega

theorem lowerChars_of_ascii {cs : List Char} (h : ∀ c ∈ cs, c.toNat < 128) :
    lowerChars cs = cs.map Char.toLower := by
  have hsigma : 'Σ' ∉ cs := fun hs => absurd (h _ hs) (by decide)
  rw [lowerChars_of_not_mem hsigma, List.map_eq_flatMap]
  exact List.flatMap_congr fun c hc => lowerChar_of_ascii (h c hc)

/-- A hexadecimal digit in lower case, or the letter of the mark before a number. -/
def isNumeral (c : Char) : Bool := Hex.isLower c || c = 'x'

/-- The codes of the digits and of the mark. -/
theorem toNat_of_isNumeral {c : Char} (h : isNumeral c = true) :
    48 ≤ c.toNat ∧ c.toNat ≤ 57 ∨ 97 ≤ c.toNat ∧ c.toNat ≤ 120 := by
  rcases Bool.or_eq_true_iff.mp h with h | h
  · have := Hex.isLower_iff.mp h
    omega
  · rw [of_decide_eq_true h]
    decide

theorem toNat_lt_of_isNumeral {c : Char} (h : isNumeral c = true) : c.toNat < 128 := by
  have := toNat_of_isNumeral h
  omega

theorem isNumeral_ofNat {n : Nat} (h : 128 ≤ n) : isNumeral (Char.ofNat n) = false := by
  by_cases hv : n.isValidChar
  · by_contra hd
    have hlt := toNat_lt_of_isNumeral (by simpa using hd)
    have hn : (Char.ofNat n).toNat = n := congrArg Char.toNat (dif_pos hv)
    omega
  · rw [Char.ofNat, dif_neg hv]
    rfl

/-- Every run stays beyond ASCII but that of the Kelvin sign, which moves to a `k`. -/
theorem lowerRuns_beyond : ∀ r ∈ lowerRuns,
    128 ≤ r.first + r.shift ∨ r.first = r.last ∧ isNumeral (r.moved r.first) = false := by
  decide +kernel

/-- No letter beyond ASCII moves to a digit or a mark. -/
theorem isNumeral_moved {r : Run} (hr : r ∈ lowerRuns) {n : Nat} (hn : r.covers n = true) :
    isNumeral (r.moved n) = false := by
  simp only [Run.covers, Bool.and_eq_true, decide_eq_true_eq] at hn
  rcases lowerRuns_beyond r hr with h | ⟨h, hmoved⟩
  · exact isNumeral_ofNat (by omega)
  · obtain rfl : n = r.first := by omega
    exact hmoved

/-- Beyond ASCII a letter is expanded, moved along a run, or left as it is. -/
theorem lowerChar_cases {c : Char} (h : 128 ≤ c.toNat) :
    (∃ e ∈ lowerExpansions, lowerChar c = e.2.map Char.ofNat) ∨
      (∃ r ∈ lowerRuns, r.covers c.toNat = true ∧ lowerChar c = [r.moved c.toNat]) ∨
        lowerChar c = [c] := by
  rw [lowerChar, if_neg (by omega), byTable]
  cases hs : lowerExpansions.lookup c.toNat with
  | some ns =>
      obtain ⟨before, after, hsplit, -⟩ := List.lookup_eq_some_iff.mp hs
      exact .inl ⟨(c.toNat, ns), by simp [hsplit], rfl⟩
  | none =>
      cases hr : lowerRuns.find? (·.covers c.toNat) with
      | some r =>
          have hcovers : r.covers c.toNat = true := by simpa using List.find?_some hr
          exact .inr (.inl ⟨r, List.mem_of_find?_eq_some hr, hcovers, rfl⟩)
      | none => exact .inr (.inr rfl)

/-- A letter beyond ASCII is put into lower case with a character that is no digit or mark. -/
theorem exists_mem_lowerChar {c : Char} (h : 128 ≤ c.toNat) :
    ∃ d ∈ lowerChar c, isNumeral d = false := by
  rcases lowerChar_cases h with ⟨e, he, hc⟩ | ⟨r, hr, hcovers, hc⟩ | hc
  · have hbeyond : ∀ e ∈ lowerExpansions, ∃ n ∈ e.2, 128 ≤ n := by decide
    obtain ⟨n, hn, hle⟩ := hbeyond e he
    rw [hc]
    exact ⟨_, List.mem_map_of_mem hn, isNumeral_ofNat hle⟩
  · rw [hc]
    exact ⟨_, List.mem_singleton_self _, isNumeral_moved hr hcovers⟩
  · rw [hc]
    refine ⟨c, List.mem_singleton_self _, ?_⟩
    rw [← Char.ofNat_toNat c]
    exact isNumeral_ofNat h

/-- Closing a word leaves a sigma a sigma, which is no ASCII letter. -/
theorem exists_mem_closeWords {cs : List Char} (h : 'Σ' ∈ cs) (inWord : Bool) :
    ∃ c ∈ closeWords inWord cs, 128 ≤ c.toNat := by
  induction cs generalizing inWord with
  | nil => cases h
  | cons c cs ih =>
      rcases List.mem_cons.mp h with rfl | h
      · refine ⟨_, List.mem_cons_self, ?_⟩
        split <;> decide
      · obtain ⟨d, hd, hle⟩ := ih h (if isPassed c then inWord else isCased c)
        exact ⟨d, List.mem_cons_of_mem _ hd, hle⟩

/-- A text that is digits and marks in lower case has no letter beyond ASCII. -/
theorem ascii_of_lowerChars {cs : List Char} (h : ∀ d ∈ lowerChars cs, isNumeral d = true) :
    ∀ c ∈ cs, c.toNat < 128 := by
  have hbeyond {ds : List Char} (hds : ∀ d ∈ ds.flatMap lowerChar, isNumeral d = true) :
      ∀ c ∈ ds, c.toNat < 128 := by
    intro c hc
    by_contra hle
    obtain ⟨d, hd, hnot⟩ := exists_mem_lowerChar (Nat.le_of_not_lt hle)
    rw [hds d (List.mem_flatMap.mpr ⟨c, hc, hd⟩)] at hnot
    cases hnot
  rw [lowerChars] at h
  by_cases hs : 'Σ' ∈ cs
  · rw [if_pos hs] at h
    obtain ⟨c, hc, hle⟩ := exists_mem_closeWords hs false
    exact absurd (hbeyond h c hc) (by omega)
  · rw [if_neg hs] at h
    exact hbeyond h

/-! ### Digits and marks -/

theorem isNumeral_of_isLower {c : Char} (h : Hex.isLower c = true) : isNumeral c = true := by
  rw [isNumeral, h, Bool.true_or]

theorem toLower_of_isNumeral {c : Char} (h : isNumeral c = true) : c.toLower = c := by
  have hn := toNat_of_isNumeral h
  rcases toLower_cases c with ⟨hc, -⟩ | ⟨hle, hge, -⟩
  · exact hc
  · omega

theorem isBlank_of_isNumeral {c : Char} (h : isNumeral c = true) : isBlank c = false := by
  have hn := toNat_of_isNumeral h
  simp only [isBlank, Bool.or_eq_false_iff, Bool.and_eq_false_iff, decide_eq_false_iff_not,
    beq_eq_false_iff_ne]
  omega

theorem toNat_lt_of_toLower {c : Char} (h : isNumeral c.toLower = true) : c.toNat < 128 := by
  have hn := toNat_lt_of_isNumeral h
  rcases toLower_cases c with ⟨hc, -⟩ | ⟨-, hle, -⟩
  · rwa [hc] at hn
  · omega

/-- No digit and no mark is blank, in either case. -/
theorem isBlank_of_toLower {c : Char} (h : isNumeral c.toLower = true) : isBlank c = false := by
  rcases toLower_cases c with ⟨hc, -⟩ | ⟨hge, hle, -⟩
  · exact isBlank_of_isNumeral (hc ▸ h)
  · simp only [isBlank, Bool.or_eq_false_iff, Bool.and_eq_false_iff, decide_eq_false_iff_not,
      beq_eq_false_iff_ne]
    omega

theorem lowerChars_of_isNumeral {cs : List Char} (h : ∀ c ∈ cs, isNumeral c = true) :
    lowerChars cs = cs := by
  rw [lowerChars_of_ascii fun c hc => toNat_lt_of_isNumeral (h c hc)]
  conv_rhs => rw [← List.map_id cs]
  exact List.map_congr_left fun c hc => toLower_of_isNumeral (h c hc)

/-- Blanks in front of a text that begins with none are passed over. -/
theorem dropWhile_isBlank {front cs : List Char} (hfront : ∀ c ∈ front, isBlank c = true)
    (hcs : ∀ c ∈ cs.head?, isBlank c = false) : (front ++ cs).dropWhile isBlank = cs := by
  rw [List.dropWhile_append_of_pos hfront]
  cases cs with
  | nil => rfl
  | cons c cs => rw [List.dropWhile_cons, hcs c rfl, if_neg Bool.false_ne_true]

/-- Trimming takes the blanks on both sides of a text that has none itself. -/
theorem trim_padded {front cs rear : List Char} (hfront : ∀ c ∈ front, isBlank c = true)
    (hcs : ∀ c ∈ cs, isBlank c = false) (hrear : ∀ c ∈ rear, isBlank c = true) :
    trim (front ++ cs ++ rear) = cs := by
  have hrear' : ∀ c ∈ rear.reverse, isBlank c = true := fun c hc => hrear c (List.mem_reverse.mp hc)
  cases cs with
  | nil =>
      have hall : (front ++ [] ++ rear).dropWhile isBlank = [] := by
        rw [List.append_nil, List.dropWhile_append_of_pos hfront]
        exact List.dropWhile_eq_nil_iff.mpr hrear
      rw [trim, hall]
      rfl
  | cons c cs =>
      have hlast : ∀ d ∈ (c :: cs).reverse.head?, isBlank d = false := fun d hd =>
        hcs d (List.mem_reverse.mp (List.mem_of_mem_head? hd))
      rw [trim, List.append_assoc, dropWhile_isBlank hfront fun d hd => hcs d (by simp_all),
        List.reverse_append, dropWhile_isBlank hrear' hlast, List.reverse_reverse]

theorem trim_of_isNumeral {cs : List Char} (h : ∀ c ∈ cs, isNumeral c = true) : trim cs = cs := by
  have hpadded : trim ([] ++ cs ++ []) = cs :=
    trim_padded (by simp) (fun c hc => isBlank_of_isNumeral (h c hc)) (by simp)
  rwa [List.nil_append, List.append_nil] at hpadded

theorem dropWhile_of_not_blank {cs : List Char} (hcs : ∀ c ∈ cs, isBlank c = false) :
    cs.dropWhile isBlank = cs :=
  List.dropWhile_eq_self_iff.mpr fun hpos => by simp [hcs cs[0] (List.getElem_mem hpos)]

/-- Behind a text without blanks, trimming takes the blanks at the end and nothing else. -/
theorem trim_append {cs : List Char} (hcs : ∀ c ∈ cs, isBlank c = false) (hne : cs ≠ [])
    (ds : List Char) :
    ∃ rest, rest <+: ds ∧ trim (cs ++ ds) = cs ++ rest := by
  have hfront : (cs ++ ds).dropWhile isBlank = cs ++ ds := by
    cases cs with
    | nil => exact absurd rfl hne
    | cons c cs => exact List.dropWhile_cons_of_neg (by simp [hcs c List.mem_cons_self])
  have hrear : (cs.reverse).dropWhile isBlank = cs.reverse :=
    dropWhile_of_not_blank fun c hc => hcs c (List.mem_reverse.mp hc)
  have hboth : (ds.reverse ++ cs.reverse).dropWhile isBlank =
      ds.reverse.dropWhile isBlank ++ cs.reverse := by
    rw [List.dropWhile_append, hrear]
    split
    · next hempty => rw [List.isEmpty_iff.mp hempty, List.nil_append]
    · rfl
  refine ⟨(ds.reverse.dropWhile isBlank).reverse, ?_, ?_⟩
  · simpa using List.reverse_prefix.mpr (List.dropWhile_suffix isBlank (l := ds.reverse))
  · rw [trim, hfront, List.reverse_append, hboth, List.reverse_append, List.reverse_reverse]

end Text

end ContractSurvey
