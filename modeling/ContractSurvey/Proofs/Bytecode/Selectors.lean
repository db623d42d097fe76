import ContractSurvey.Proofs.Bytecode.Dispatcher
import ContractSurvey.Proofs.Text.Settled

/-!
# Proofs — Bytecode — Selectors

Where the selectors of an arbitrary code come from.  A piece that a scan finds stands in the text
and has the characters of the shape (`isInfix_of_mem_found`).  The scans bring the normal text into
normal form a second time, which takes more of its blanks and a second mark but moves no letter
(`normalize_normalize`), so what they find stands in the normal text itself.

The main statement is `exists_digits_of_mem_selectors`: a selector is written with eight digits
that stand in the normal text of the code.
-/

namespace ContractSurvey

theorem Text.isInfix_trim (cs : List Char) : trim cs <:+: cs := by
  have hrear : trim cs <+: cs.dropWhile isBlank := by
    simpa [trim] using List.reverse_prefix.mpr
      (List.dropWhile_suffix isBlank (l := (cs.dropWhile isBlank).reverse))
  exact hrear.isInfix.trans (List.dropWhile_suffix isBlank).isInfix

namespace Bytecode

/-! ### Normal text, twice -/

theorem dropMark_suffix (cs : List Char) : dropMark cs <:+ cs := by
  unfold dropMark
  split
  · exact List.suffix_append ['0', 'x'] _
  · exact List.suffix_rfl

/-- The second time, no letter is moved. -/
theorem normalize_normalize (cs : List Char) :
    normalize (normalize cs) = dropMark (Text.trim (normalize cs)) := by
  have hsettled : ∀ c ∈ Text.trim (normalize cs), Text.lowerChar c = [c] := by
    intro c hc
    have hnormal : c ∈ normalize cs := (Text.isInfix_trim _).subset hc
    exact Text.lowerChar_of_mem_lowerChars ((dropMark_suffix _).subset hnormal)
  rw [normalize, Text.lowerChars_of_settled hsettled]

theorem isInfix_normalize_normalize (cs : List Char) :
    normalize (normalize cs) <:+: normalize cs := by
  rw [normalize_normalize]
  exact (dropMark_suffix _).isInfix.trans (Text.isInfix_trim _)

/-! ### Pieces -/

namespace Shape

variable {shape : Shape}

/-- A shape fits when the characters at the front lie in its sets, place by place. -/
theorem fits_iff {cs : List Char} :
    shape.fits cs = true ↔ List.Forall₂ (· ∈ ·) (cs.take shape.length) shape := by
  induction shape generalizing cs with
  | nil => simp [fits]
  | cons set shape ih =>
      cases cs with
      | nil => simp [fits]
      | cons c cs => simp [fits, ih]

theorem length_le_of_fits {cs : List Char} (h : shape.fits cs = true) :
    shape.length ≤ cs.length := by
  have hlen := (fits_iff.mp h).length_eq
  rw [List.length_take] at hlen
  omega

theorem isInfix_of_mem_foundFrom {skip : Nat} {cs piece : List Char}
    (h : piece ∈ shape.foundFrom skip cs) :
    piece <:+: cs ∧ List.Forall₂ (· ∈ ·) piece shape := by
  fun_induction foundFrom with
  | case1 => cases h
  | case2 skip c rest ih => exact ⟨(ih h).1.trans (List.suffix_cons c rest).isInfix, (ih h).2⟩
  | case3 c rest hfits ih =>
      rcases List.mem_cons.mp h with rfl | h
      · exact ⟨(List.take_prefix _ _).isInfix, fits_iff.mp hfits⟩
      · exact ⟨(ih h).1.trans (List.suffix_cons c rest).isInfix, (ih h).2⟩
  | case4 c rest hfits ih => exact ⟨(ih h).1.trans (List.suffix_cons c rest).isInfix, (ih h).2⟩

/-- What a scan finds stands in the text and has the characters of the shape. -/
theorem isInfix_of_mem_found {cs piece : List Char} (h : piece ∈ shape.found cs) :
    piece <:+: cs ∧ List.Forall₂ (· ∈ ·) piece shape :=
  isInfix_of_mem_foundFrom h

end Shape

theorem forall_mem_of_replicate {n : Nat} {set cs : List Char}
    (h : List.Forall₂ (· ∈ ·) cs (List.replicate n set)) : ∀ c ∈ cs, c ∈ set := by
  induction n generalizing cs with
  | zero => cases h; simp
  | succ n ih =>
      cases h with
      | cons hc h => exact List.forall_mem_cons.mpr ⟨hc, ih h⟩

theorem isLower_of_mem_hexSet {c : Char} (h : c ∈ hexSet) : Hex.isLower c = true := by
  have hall : hexSet.all Hex.isLower = true := by decide
  exact List.all_eq_true.mp hall c h

/-- A piece of a shape that ends in eight digits ends in the digits of its selector. -/
theorem exists_digits_of_piece {front : Shape} {piece : List Char}
    (h : List.Forall₂ (· ∈ ·) piece (front ++ eightDigits)) :
    ∃ s : SelectorDigits, s.selector = selectorOf piece ∧ s.chars <:+ piece := by
  have hlen : piece.length = front.length + 8 := by
    rw [h.length_eq, List.length_append]
    rfl
  have hdigits : List.Forall₂ (· ∈ ·) (piece.drop (piece.length - 8)) eightDigits := by
    simpa [hlen] using List.forall₂_drop front.length h
  refine ⟨⟨piece.drop (piece.length - 8), hdigits.length_eq,
    fun c hc => isLower_of_mem_hexSet (forall_mem_of_replicate hdigits c hc)⟩, ?_,
    List.drop_suffix _ _⟩
  have hmark : "0x" = String.ofList ['0', 'x'] := rfl
  rw [SelectorDigits.selector, hmark, ← String.ofList_append]
  rfl

/-! ### The selectors of a code -/

theorem exists_digits_of_mem_scan {front : Shape} {cs : List Char} {t : Selector}
    (h : t ∈ scan (front ++ eightDigits) cs) :
    ∃ s : SelectorDigits, s.selector = t ∧ s.chars <:+: normalize cs := by
  rw [scan, Sequence.mem_distinct, List.mem_map] at h
  obtain ⟨piece, hpiece, rfl⟩ := h
  obtain ⟨hstands, hfits⟩ := Shape.isInfix_of_mem_found hpiece
  obtain ⟨s, hs, hsuffix⟩ := exists_digits_of_piece hfits
  exact ⟨s, hs, hsuffix.isInfix.trans hstands⟩

/-- A selector is written with eight digits that stand in the normal text of the code. -/
theorem exists_digits_of_mem_selectors {code : Option String} {t : Selector}
    (h : t ∈ selectors code) :
    ∃ s : SelectorDigits, s.selector = t ∧ s.chars <:+: text code := by
  have hscan : ∃ s : SelectorDigits, s.selector = t ∧ s.chars <:+: normalize (text code) := by
    rw [selectors] at h
    split at h
    · cases h
    · rw [Sequence.mem_distinct, List.mem_append, List.mem_append] at h
      -- every one of the three shapes ends in eight digits
      rcases h with (h | h) | h <;> exact exists_digits_of_mem_scan h
  obtain ⟨s, hs, hstands⟩ := hscan
  refine ⟨s, hs, hstands.trans ?_⟩
  cases code with
  | none => exact List.infix_rfl
  | some code => exact isInfix_normalize_normalize code.toList

/-- A selector of a code is in lower case. -/
theorem lower_of_mem_selectors {code : Option String} {t : Selector} (h : t ∈ selectors code) :
    Text.lower t = t := by
  obtain ⟨s, rfl, -⟩ := exists_digits_of_mem_selectors h
  exact Dispatcher.lower_selector s

end Bytecode

end ContractSurvey
