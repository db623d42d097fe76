import ContractSurvey.Proofs.Bytecode.Text
import ContractSurvey.Proofs.Profile.Pattern

/-!
# Proofs — Profile — Spelling

A profile depends on the digits of a code and not on how they are written.  `Spelling` collects the
ways to write digits as the text of a code: blanks on both sides, one of the two marks or none, and
every letter in either case.

* `text_spelling`: the normal text of a spelling is its digits in lower case.
* `ofCode_congr`: the normal text is all that a profile takes from a code.

So two spellings of the same digits make the same profile, or both are refused because there are no
digits (`ofCode_spelling`).
-/

namespace ContractSurvey

namespace Bytecode

/-! ### Spellings -/

/-- A way to write some hexadecimal digits as the text of a code. -/
structure Spelling (digits : List Char) where
  front : List Char
  mark : List Char
  letters : List Char
  rear : List Char
  front_blank : ∀ c ∈ front, Text.isBlank c = true
  rear_blank : ∀ c ∈ rear, Text.isBlank c = true
  mark_mem : mark ∈ [[], ['0', 'x'], ['0', 'X']]
  /-- The case of each letter is free. -/
  letters_eq : letters.map Char.toLower = digits.map Char.toLower

namespace Spelling

variable {digits : List Char}

/-- The text as it is handed over. -/
def text (v : Spelling digits) : String :=
  String.ofList (v.front ++ (v.mark ++ v.letters) ++ v.rear)

/-- Between the blanks stand a mark, or none, and the digits. -/
theorem map_toLower (v : Spelling digits) :
    (v.mark ++ v.letters).map Char.toLower = digits.map Char.toLower ∨
      (v.mark ++ v.letters).map Char.toLower = '0' :: 'x' :: digits.map Char.toLower := by
  rw [List.map_append, v.letters_eq]
  rcases List.mem_cons.mp v.mark_mem with hnone | hmark
  · exact .inl (by rw [hnone]; rfl)
  · rcases List.mem_cons.mp hmark with hlower | hcapital
    · exact .inr (by rw [hlower]; rfl)
    · exact .inr (by rw [List.mem_singleton.mp hcapital]; rfl)

end Spelling

variable {digits : List Char}

/-- The normal text of a spelling is its digits in lower case. -/
theorem text_spelling (h : ∀ c ∈ digits, Hex.isDigit c = true) (v : Spelling digits) :
    text (some v.text) = digits.map Char.toLower := by
  have hlower := isLower_of_mem_map_toLower h
  have hnumeral : ∀ c ∈ (v.mark ++ v.letters).map Char.toLower, Text.isNumeral c = true := by
    have hdigits : ∀ c ∈ digits.map Char.toLower, Text.isNumeral c = true := fun c hc =>
      Text.isNumeral_of_isLower (hlower c hc)
    rcases v.map_toLower with heq | heq
    · rwa [heq]
    · rw [heq, List.forall_mem_cons, List.forall_mem_cons]
      exact ⟨by decide, by decide, hdigits⟩
  rw [text, Spelling.text, String.toList_ofList,
    normalize_padded v.front_blank hnumeral v.rear_blank]
  rcases v.map_toLower with heq | heq
  · rw [heq, dropMark_of_isLower hlower]
  · rw [heq]
    rfl

end Bytecode

/-! ### Profiles -/

namespace Profile

open Bytecode (Spelling)

/-- A profile takes nothing from a code but its normal text, and no reading of the code misses to
bring it into normal form. -/
theorem ofCode_congr {c d : Option String} (h : Bytecode.text c = Bytecode.text d)
    (address : String) (name : Option String) :
    ofCode address c name = ofCode address d name := by
  -- each part normalises the text for itself
  have hempty : Bytecode.isEmpty c = Bytecode.isEmpty d := by
    rw [Bytecode.isEmpty, Bytecode.isEmpty, h]
  have hselectors : Bytecode.selectors c = Bytecode.selectors d := by
    rw [Bytecode.selectors, Bytecode.selectors, h]
  have hpatterns (ss : List Selector) : Pattern.classify ss c = Pattern.classify ss d := by
    rw [Pattern.classify, Pattern.classify, h]
  have hsize : Bytecode.size c = Bytecode.size d := by rw [Bytecode.size, Bytecode.size, h]
  have hhash : Bytecode.hash c = Bytecode.hash d := by rw [Bytecode.hash, Bytecode.hash, h]
  have hgas (ps : List Pattern) : Feature.gas ps c = Feature.gas ps d := by
    rw [Feature.gas, Feature.gas, h]
  have hcounts : Bytecode.opcodeCounts c = Bytecode.opcodeCounts d := by
    rw [Bytecode.opcodeCounts, Bytecode.instructions, h, Bytecode.opcodeCounts,
      Bytecode.instructions]
  have hflags : Bytecode.opcodeFlags c = Bytecode.opcodeFlags d := by
    rw [Bytecode.opcodeFlags, Bytecode.opcodeFlags, hcounts]
  have htrailer : Bytecode.trailer? c = Bytecode.trailer? d := by
    rw [Bytecode.trailer?, Bytecode.trailer?, h]
  simp only [ofCode, hempty, hselectors, hpatterns, hsize, hhash, hgas, hflags, htrailer]

/-- **Spellings of a code.**  All spellings of the same digits make the same profile; without digits
they are refused, all with the same error. -/
theorem ofCode_spelling {digits : List Char} (h : ∀ c ∈ digits, Hex.isDigit c = true)
    (v w : Spelling digits) (address : String) (name : Option String) :
    ofCode address (some v.text) name = ofCode address (some w.text) name ∧
    (digits = [] → ofCode address (some v.text) name = .error (.emptyCode address)) ∧
    (digits ≠ [] → ∃ p, ofCode address (some v.text) name = .ok p) := by
  have htext := Bytecode.text_spelling h v
  refine ⟨ofCode_congr (htext.trans (Bytecode.text_spelling h w).symm) address name, ?_, ?_⟩
  · rintro rfl
    rw [ofCode, Bytecode.isEmpty, htext]
    rfl
  · intro hne
    have hempty : Bytecode.isEmpty (some v.text) = false := by
      rw [Bytecode.isEmpty, htext, List.isEmpty_eq_false_iff]
      simpa using hne
    obtain ⟨p, hp, -⟩ := exists_ofCode (some v.text) address name hempty
    exact ⟨p, hp⟩

/-- Digits of a `PUSH4` as they are often written. -/
def plainPush : Spelling "63a9059cbb".toList where
  front := []
  mark := ['0', 'x']
  letters := "63a9059cbb".toList
  rear := []
  front_blank := by simp
  rear_blank := by simp
  mark_mem := by simp
  letters_eq := by decide

/-- The same digits in mixed case, with the other mark and between blanks. -/
def paddedPush : Spelling "63a9059cbb".toList where
  front := [' ', '\u3000']
  mark := ['0', 'X']
  letters := "63A9059cBB".toList
  rear := ['\n']
  front_blank := List.all_eq_true.mp (by decide)
  rear_blank := List.all_eq_true.mp (by decide)
  mark_mem := by simp
  letters_eq := by decide

theorem ofCode_spelling_push : (∀ c ∈ "63a9059cbb".toList, Hex.isDigit c = true) ∧
    ofCode "0xab" (some "0x63a9059cbb") none =
      ofCode "0xab" (some " \u30000X63A9059cBB\n") none ∧
    ∃ p, ofCode "0xab" (some "0x63a9059cbb") none = .ok p := by
  have hdigits : ∀ c ∈ "63a9059cbb".toList, Hex.isDigit c = true :=
    List.all_eq_true.mp (by decide)
  obtain ⟨hsame, -, hprofile⟩ := ofCode_spelling hdigits plainPush paddedPush "0xab" none
  exact ⟨hdigits, hsame, hprofile (by decide)⟩

end Profile

end ContractSurvey
