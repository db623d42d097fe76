import ContractSurvey.Bytecode.Text
import ContractSurvey.Proofs.Text.LowerCase

/-!
# Proofs — Bytecode — Text

The normal text of a code that is written as digits.  The mark goes and the digits stay
(`normalize_marked`), capitals are put into lower case (`text_digits`), and to bring lower-case
digits into normal form again changes nothing (`normalize_of_isLower`).  So a code that a node
answers with is empty only without bytes (`isEmpty_ofBytes`).
-/

namespace ContractSurvey.Bytecode

variable {cs : List Char}

theorem dropMark_of_isLower (h : ∀ c ∈ cs, Hex.isLower c = true) : dropMark cs = cs := by
  unfold dropMark
  split
  · exact absurd (h 'x' (by simp)) (by decide)
  · rfl

theorem normalize_of_isNumeral (h : ∀ c ∈ cs, Text.isNumeral c = true) :
    normalize cs = dropMark cs := by
  rw [normalize, Text.trim_of_isNumeral h, Text.lowerChars_of_isNumeral h]

theorem normalize_of_isLower (h : ∀ c ∈ cs, Hex.isLower c = true) : normalize cs = cs := by
  rw [normalize_of_isNumeral fun c hc => Text.isNumeral_of_isLower (h c hc),
    dropMark_of_isLower h]

theorem normalize_marked (h : ∀ c ∈ cs, Hex.isLower c = true) :
    normalize ('0' :: 'x' :: cs) = cs := by
  refine normalize_of_isNumeral ?_
  rw [List.forall_mem_cons, List.forall_mem_cons]
  exact ⟨by decide, by decide, fun c hc => Text.isNumeral_of_isLower (h c hc)⟩

theorem text_marked (h : ∀ c ∈ cs, Hex.isLower c = true) :
    text (some ("0x" ++ String.ofList cs)) = cs := by
  simpa [text] using normalize_marked h

theorem isLower_of_mem_map_toLower (h : ∀ c ∈ cs, Hex.isDigit c = true) :
    ∀ c ∈ cs.map Char.toLower, Hex.isLower c = true := by
  intro c hc
  obtain ⟨d, hd, rfl⟩ := List.mem_map.mp hc
  exact Text.isLower_toLower (h d hd)

/-- The normal text of a text between blanks, if it has digits and marks only. -/
theorem normalize_padded {front cs rear : List Char} (hfront : ∀ c ∈ front, Text.isBlank c = true)
    (hcs : ∀ c ∈ cs.map Char.toLower, Text.isNumeral c = true)
    (hrear : ∀ c ∈ rear, Text.isBlank c = true) :
    normalize (front ++ cs ++ rear) = dropMark (cs.map Char.toLower) := by
  have hnumeral : ∀ c ∈ cs, Text.isNumeral c.toLower = true := fun c hc =>
    hcs _ (List.mem_map_of_mem hc)
  rw [normalize,
    Text.trim_padded hfront (fun c hc => Text.isBlank_of_toLower (hnumeral c hc)) hrear,
    Text.lowerChars_of_ascii fun c hc => Text.toNat_lt_of_toLower (hnumeral c hc)]

/-- The normal text of digits is the digits in lower case. -/
theorem text_digits (h : ∀ c ∈ cs, Hex.isDigit c = true) :
    text (some (String.ofList cs)) = cs.map Char.toLower := by
  have hlower := isLower_of_mem_map_toLower h
  have hpadded : normalize ([] ++ cs ++ []) = dropMark (cs.map Char.toLower) :=
    normalize_padded (by simp) (fun c hc => Text.isNumeral_of_isLower (hlower c hc)) (by simp)
  rw [List.nil_append, List.append_nil, dropMark_of_isLower hlower] at hpadded
  rw [text, String.toList_ofList, hpadded]

theorem isEmpty_ofBytes (bytes : List UInt8) :
    isEmpty (some ("0x" ++ String.ofList (Hex.ofBytes bytes))) = bytes.isEmpty := by
  rw [isEmpty, text_marked fun c hc => Hex.isLower_of_mem_ofBytes hc]
  cases bytes <;> rfl

end ContractSurvey.Bytecode
