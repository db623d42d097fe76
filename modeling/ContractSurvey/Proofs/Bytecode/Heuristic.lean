import ContractSurvey.Proofs.Bytecode.Taken
import ContractSurvey.Proofs.Bytecode.Selectors

/-!
# Proofs — Bytecode — Heuristic

The three scans for selectors, by the texts they look for.  A match is an opening and eight digits
behind it, and the matches of one heuristic are all of one length.  The scan chooses matches from
left to right: a match is chosen unless one that is chosen reaches into it from the left
(`Heuristic.mem_scan_iff`).

The selectors of a code are read from its normal text, which every scan brings into normal form
once more.  That takes blanks from the ends and a second mark, where no match can be: a match
consists of digits and does not begin with a `0` (`Shape.OfDigits.found_normalize`).  So the
selectors are what the three scans find in the code as it is written (`selectors_of_chosen`).
-/

namespace ContractSurvey

/-- Trimming takes blanks from the ends and nothing else. -/
theorem Text.exists_append_trim (cs : List Char) : ∃ front rear, front ++ (trim cs ++ rear) = cs ∧
    (∀ c ∈ front, isBlank c = true) ∧ ∀ c ∈ rear, isBlank c = true := by
  refine ⟨cs.takeWhile isBlank, ((cs.dropWhile isBlank).reverse.takeWhile isBlank).reverse,
    ?_, fun c hc => List.mem_takeWhile_imp hc,
    fun c hc => List.mem_takeWhile_imp (List.mem_reverse.mp hc)⟩
  rw [trim, ← List.reverse_append, List.takeWhile_append_dropWhile, List.reverse_reverse,
    List.takeWhile_append_dropWhile]

namespace Bytecode

namespace Shape

variable {shape : Shape} {cs front rear : List Char}

/-! ### Digits behind a word -/

/-- A word goes on with a character of a set. -/
theorem fits_word_append {s : String} {set : List Char} :
    (word s ++ [set]).fits cs = true ↔ ∃ c ∈ set, s.toList ++ [c] <+: cs := by
  have hlen : (word s).length = s.toList.length := List.length_map _
  rw [fits_append_drop, Bool.and_eq_true, fits_word, hlen]
  constructor
  · rintro ⟨⟨rest, rfl⟩, hset⟩
    rw [List.drop_left] at hset
    cases rest with
    | nil => cases hset
    | cons c rest => exact ⟨c, by simpa [fits] using hset, by simp⟩
  · rintro ⟨c, hc, rest, rfl⟩
    simp [fits, hc]

/-! ### Characters outside a shape -/

/-- The character stands at no place of the shape. -/
def Lacks (shape : Shape) (c : Char) : Prop := ∀ set ∈ shape, c ∉ set

theorem fits_of_lacks (hshape : shape ≠ []) {c : Char} (h : shape.Lacks c) (cs : List Char) :
    shape.fits (c :: cs) = false := by
  cases shape with
  | nil => exact absurd rfl hshape
  | cons set shape => simp [fits, h set List.mem_cons_self]

/-- A scan passes over characters that the shape lacks. -/
theorem foundFrom_append_of_lacks_left (hshape : shape ≠ []) (h : ∀ c ∈ front, shape.Lacks c)
    (cs : List Char) : shape.foundFrom 0 (front ++ cs) = shape.foundFrom 0 cs := by
  induction front with
  | nil => rfl
  | cons c front ih =>
      rw [List.forall_mem_cons] at h
      rw [List.cons_append, foundFrom_skip (fits_of_lacks hshape h.1 _), ih h.2]

theorem foundFrom_of_lacks (hshape : shape ≠ []) (h : ∀ c ∈ cs, shape.Lacks c) (skip : Nat) :
    shape.foundFrom skip cs = [] := by
  fun_induction foundFrom with
  | case1 => rfl
  | case2 skip c rest ih => exact ih (List.forall_mem_cons.mp h).2
  | case3 c rest hfits ih =>
      rw [fits_of_lacks hshape (List.forall_mem_cons.mp h).1] at hfits
      cases hfits
  | case4 c rest hfits ih => exact ih (List.forall_mem_cons.mp h).2

theorem fits_append_of_lacks_right (h : ∀ c ∈ rear, shape.Lacks c) (cs : List Char) :
    shape.fits (cs ++ rear) = shape.fits cs := by
  induction shape generalizing cs with
  | nil => rfl
  | cons set shape ih =>
      cases cs with
      | nil =>
          cases rear with
          | nil => rfl
          | cons c rear => exact fits_of_lacks (List.cons_ne_nil _ _) (h c List.mem_cons_self) _
      | cons c cs =>
          rw [List.cons_append, fits, fits,
            ih (fun c hc set hset => h c hc set (List.mem_cons_of_mem _ hset)) cs]

/-- No piece reaches into characters that the shape lacks. -/
theorem foundFrom_append_of_lacks_right (hshape : shape ≠ []) (h : ∀ c ∈ rear, shape.Lacks c)
    (skip : Nat) (cs : List Char) :
    shape.foundFrom skip (cs ++ rear) = shape.foundFrom skip cs := by
  fun_induction foundFrom shape skip cs with
  | case1 skip => exact foundFrom_of_lacks hshape h skip
  | case2 skip c rest ih => exact ih
  | case3 c rest hfits ih =>
      have hlen : shape.length ≤ (c :: rest).length := length_le_of_fits hfits
      rw [List.cons_append, foundFrom, ← List.cons_append, fits_append_of_lacks_right h,
        if_pos hfits, List.take_append_of_le_length hlen, ih]
  | case4 c rest hfits ih =>
      rw [List.cons_append, foundFrom, ← List.cons_append, fits_append_of_lacks_right h,
        if_neg hfits, ih]

/-! ### The second normal form -/

/-- The shape of some digits, the first of them no `0`. -/
structure OfDigits (shape : Shape) : Prop where
  isLower : ∀ set ∈ shape, ∀ c ∈ set, Hex.isLower c = true
  zero : ∀ cs, shape.fits ('0' :: cs) = false

theorem OfDigits.ne_nil (h : shape.OfDigits) : shape ≠ [] := by
  rintro rfl
  cases h.zero []

theorem OfDigits.lacks (h : shape.OfDigits) {c : Char} (hc : Hex.isLower c = false) :
    shape.Lacks c := by
  intro set hset hmem
  rw [h.isLower set hset c hmem] at hc
  cases hc

theorem OfDigits.lacks_of_isBlank (h : shape.OfDigits) {c : Char} (hc : Text.isBlank c = true) :
    shape.Lacks c := by
  refine h.lacks ((Bool.not_eq_true _).mp fun hlower => ?_)
  rw [Text.isBlank_of_isNumeral (Text.isNumeral_of_isLower hlower)] at hc
  cases hc

theorem OfDigits.found_trim (h : shape.OfDigits) (cs : List Char) :
    shape.found (Text.trim cs) = shape.found cs := by
  obtain ⟨front, rear, heq, hfront, hrear⟩ := Text.exists_append_trim cs
  conv_rhs => rw [← heq]
  rw [found, found,
    foundFrom_append_of_lacks_left h.ne_nil fun c hc => h.lacks_of_isBlank (hfront c hc),
    foundFrom_append_of_lacks_right h.ne_nil fun c hc => h.lacks_of_isBlank (hrear c hc)]

theorem OfDigits.found_dropMark (h : shape.OfDigits) (cs : List Char) :
    shape.found (dropMark cs) = shape.found cs := by
  unfold dropMark
  split
  · next rest =>
      have hx : shape.Lacks 'x' := h.lacks (by decide)
      rw [found, found, foundFrom_skip (h.zero _), foundFrom_skip (fits_of_lacks h.ne_nil hx _)]
  · rfl

/-- What the second normal form takes from a text is in no piece. -/
theorem OfDigits.found_normalize (h : shape.OfDigits) (cs : List Char) :
    shape.found (normalize (normalize cs)) = shape.found (normalize cs) := by
  rw [normalize_normalize, h.found_dropMark, h.found_trim]

end Shape

theorem scan_normalize {shape : Shape} (h : shape.OfDigits) (cs : List Char) :
    scan shape (normalize cs) = scan shape cs := by
  rw [scan, h.found_normalize, scan]

theorem fits_eightDigits {cs : List Char} :
    eightDigits.fits cs = true ↔ ∃ s : SelectorDigits, s.chars <+: cs := by
  constructor
  · intro hfits
    have hdigits := Shape.fits_iff.mp hfits
    exact ⟨⟨_, hdigits.length_eq,
      fun c hc => isLower_of_mem_hexSet (forall_mem_of_replicate hdigits c hc)⟩,
      List.take_prefix _ _⟩
  · rintro ⟨s, rest, rfl⟩
    rw [← List.append_nil eightDigits, Shape.fits_append s.length_eq, eightDigits,
      Shape.fits_digits s.length_eq.ge s.isLower]
    rfl

/-! ### Heuristics and matches -/

/-- The three ways of looking for selectors. -/
inductive Heuristic
  | push4
  | dispatcher
  | jumpTable

namespace Heuristic

variable {h : Heuristic} {cs : List Char} {p : Nat}

/-- The selectors that the heuristic finds. -/
def scan : Heuristic → List Char → List Selector
  | push4 => scanPush4
  | dispatcher => scanDispatcher
  | jumpTable => scanJumpTable

/-- What stands before the digits of a selector. -/
def openings : Heuristic → List String
  | push4 => ["63"]
  | dispatcher => ["8060043510", "8060043511", "8060043514"]
  | jumpTable => ["5b8060043580", "5b8060043581", "5b8060043582", "5b8060043583"]

/-- An opening and the eight digits behind it. -/
structure Match (h : Heuristic) where
  opening : String
  mem : opening ∈ h.openings
  digits : SelectorDigits

def Match.chars (m : h.Match) : List Char := m.opening.toList ++ m.digits.chars

/-- The match stands in the text at `p`. -/
def Match.At (m : h.Match) (cs : List Char) (p : Nat) : Prop := m.chars <+: cs.drop p

/-- There is a match at `p`, and none that is chosen before reaches past `p`. -/
def Chosen (h : Heuristic) (cs : List Char) (p : Nat) : Prop :=
  (∃ m : h.Match, m.At cs p) ∧
    ∀ q, q < p → Chosen h cs q → ∀ m : h.Match, m.At cs q → q + m.chars.length ≤ p

theorem chosen_iff : h.Chosen cs p ↔ (∃ m : h.Match, m.At cs p) ∧
    ∀ q, q < p → h.Chosen cs q → ∀ m : h.Match, m.At cs q → q + m.chars.length ≤ p := by
  rw [Chosen]

/-! ### The shape of the matches -/

def shape : Heuristic → Shape
  | push4 => push4Shape
  | dispatcher => dispatcherShape
  | jumpTable => jumpTableShape

theorem scan_eq (h : Heuristic) (cs : List Char) : h.scan cs = Bytecode.scan h.shape cs := by
  cases h <;> rfl

theorem ofDigits_shape (h : Heuristic) : h.shape.OfDigits := by
  have hall : h.shape.all (·.all Hex.isLower) = true := by cases h <;> decide
  refine ⟨fun set hset c hc => ?_, fun _ => by cases h <;> rfl⟩
  exact List.all_eq_true.mp (List.all_eq_true.mp hall set hset) c hc

theorem length_openings (h : Heuristic) :
    ∀ o ∈ h.openings, o.toList.length + 8 = h.shape.length := by
  cases h <;> decide

theorem Match.length_chars (m : h.Match) : m.chars.length = h.shape.length := by
  rw [chars, List.length_append, m.digits.length_eq, h.length_openings _ m.mem]

/-- Before the digits the shape is that of the openings. -/
theorem exists_front (h : Heuristic) : ∃ front : Shape, h.shape = front ++ eightDigits ∧
    ∀ cs, front.fits cs = true ↔ ∃ o ∈ h.openings, o.toList <+: cs := by
  cases h with
  | push4 => exact ⟨_, rfl, fun cs => by simp [Shape.fits_word, openings]⟩
  | dispatcher =>
      refine ⟨_, rfl, fun cs => ?_⟩
      rw [Shape.fits_word_append]
      simp [openings]
  | jumpTable =>
      refine ⟨_, rfl, fun cs => ?_⟩
      rw [Shape.fits_word_append]
      simp [openings]

theorem fits_shape_iff : h.shape.fits cs = true ↔ ∃ m : h.Match, m.chars <+: cs := by
  obtain ⟨front, hshape, hfront⟩ := h.exists_front
  have hlen {o : String} (ho : o ∈ h.openings) : front.length = o.toList.length := by
    have := h.length_openings o ho
    rw [hshape, List.length_append] at this
    exact (Nat.add_right_cancel this).symm
  rw [hshape, Shape.fits_append_drop, Bool.and_eq_true, hfront, fits_eightDigits]
  constructor
  · rintro ⟨⟨o, ho, rest, rfl⟩, s, hs⟩
    rw [hlen ho, List.drop_left] at hs
    exact ⟨⟨o, ho, s⟩, (List.prefix_append_right_inj _).mpr hs⟩
  · rintro ⟨⟨o, ho, s⟩, hm⟩
    have hopening : o.toList <+: cs := (List.prefix_append _ _).trans hm
    refine ⟨⟨o, ho, hopening⟩, s, ?_⟩
    obtain ⟨rest, rfl⟩ := hopening
    rw [hlen ho, List.drop_left]
    exact (List.prefix_append_right_inj _).mp hm

/-- What is chosen is what the scan takes. -/
theorem chosen_iff_taken : h.Chosen cs p ↔ h.shape.Taken cs p := by
  induction p using Nat.strong_induction_on with
  | _ p ih =>
      rw [chosen_iff, Shape.taken_iff, fits_shape_iff]
      refine and_congr_right fun _ => forall_congr' fun q => imp_congr_right fun hq => ?_
      rw [ih q hq]
      refine imp_congr_right fun htaken => ?_
      obtain ⟨m, hm⟩ := fits_shape_iff.mp (Shape.taken_iff.mp htaken).1
      simp only [Match.length_chars]
      exact ⟨fun hle => hle m hm, fun hle _ _ => hle⟩

/-- A scan finds the selectors of the matches that are chosen. -/
theorem mem_scan_iff {t : Selector} : t ∈ h.scan cs ↔
    ∃ p, h.Chosen (normalize cs) p ∧ ∃ m : h.Match, m.At (normalize cs) p ∧
      m.digits.selector = t := by
  simp only [scan_eq, Bytecode.scan, Sequence.mem_distinct, List.mem_map,
    Shape.mem_found_iff h.ofDigits_shape.ne_nil, chosen_iff_taken]
  have hpiece {p : Nat} {m : h.Match} (hm : m.At (normalize cs) p) :
      selectorOf (((normalize cs).drop p).take h.shape.length) = m.digits.selector := by
    rw [← m.length_chars, ← List.prefix_iff_eq_take.mp hm]
    exact Dispatcher.selectorOf_append _ _
  constructor
  · rintro ⟨_, ⟨p, htaken, rfl⟩, rfl⟩
    obtain ⟨m, hm⟩ := fits_shape_iff.mp (Shape.taken_iff.mp htaken).1
    exact ⟨p, htaken, m, hm, (hpiece hm).symm⟩
  · rintro ⟨p, htaken, m, hm, rfl⟩
    exact ⟨_, ⟨p, htaken, rfl⟩, hpiece hm⟩

end Heuristic

/-! ### The selectors of a code -/

theorem exists_heuristic {P : Heuristic → Prop} :
    (∃ h, P h) ↔ P .push4 ∨ P .dispatcher ∨ P .jumpTable := by
  constructor
  · rintro ⟨h, hP⟩
    cases h with
    | push4 => exact .inl hP
    | dispatcher => exact .inr (.inl hP)
    | jumpTable => exact .inr (.inr hP)
  · rintro (hP | hP | hP)
    · exact ⟨_, hP⟩
    · exact ⟨_, hP⟩
    · exact ⟨_, hP⟩

theorem mem_selectors_iff_scan_text {code : Option String} {t : Selector} :
    t ∈ selectors code ↔ ∃ h : Heuristic, t ∈ h.scan (text code) := by
  rw [selectors]
  split
  · next hempty =>
      -- no scan finds anything in the empty text
      rw [List.isEmpty_iff.mp hempty, exists_heuristic]
      exact iff_of_false List.not_mem_nil (by rintro (h | h | h) <;> cases h)
  · rw [Sequence.mem_distinct, List.mem_append, List.mem_append, or_assoc, exists_heuristic]
    rfl

/-- The selectors of a code are what the scans find in the code as it is written. -/
theorem mem_selectors_iff_scan {code : String} {t : Selector} :
    t ∈ selectors (some code) ↔ ∃ h : Heuristic, t ∈ h.scan code.toList := by
  have hscan (h : Heuristic) : h.scan (text (some code)) = h.scan code.toList := by
    rw [Heuristic.scan_eq, Heuristic.scan_eq, text, scan_normalize h.ofDigits_shape]
  simp only [mem_selectors_iff_scan_text, hscan]

/-- **The scans for selectors.**  Each scan finds, once each, the selectors of the matches that it
chooses in the normal text: those at places into which no match reaches that is chosen before.  The
selectors of a code are what the three scans find in the code as it is written, even where the
normal text of the normal text is another one. -/
theorem selectors_of_chosen :
    (∀ (h : Heuristic) (cs : List Char),
      (∀ p, h.Chosen cs p ↔ (∃ m : h.Match, m.At cs p) ∧
        ∀ q, q < p → h.Chosen cs q → ∀ m : h.Match, m.At cs q → q + m.chars.length ≤ p) ∧
      (h.scan cs).Nodup ∧
      ∀ t, t ∈ h.scan cs ↔ ∃ p, h.Chosen (normalize cs) p ∧
        ∃ m : h.Match, m.At (normalize cs) p ∧ m.digits.selector = t) ∧
    (∀ code : String, (selectors (some code)).Nodup ∧
      ∀ t, t ∈ selectors (some code) ↔ ∃ h : Heuristic, t ∈ h.scan code.toList) ∧
    ∃ cs, normalize (normalize cs) ≠ normalize cs := by
  refine ⟨fun h cs => ⟨fun _ => Heuristic.chosen_iff, ?_, fun _ => Heuristic.mem_scan_iff⟩,
    fun code => ⟨Dispatcher.nodup_selectors_of_code _, fun _ => mem_selectors_iff_scan⟩, ?_⟩
  · rw [Heuristic.scan_eq]
    exact Sequence.nodup_distinct _
  · -- behind the first mark stand a blank and a second mark
    exact ⟨"0x 0x63".toList, by decide +kernel⟩

end Bytecode

end ContractSurvey
