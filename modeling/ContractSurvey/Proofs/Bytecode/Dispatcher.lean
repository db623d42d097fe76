import ContractSurvey.Proofs.Bytecode.Scan
import ContractSurvey.Proofs.Bytecode.Text
import ContractSurvey.Proofs.Profile.Pattern

/-!
# Proofs — Bytecode — Dispatcher

The selectors of a dispatcher are read back from its code.  A dispatcher compares the selector of a
call with one constant after the other, and its code is one entry for each constant between a fixed
prologue and a fixed closing.  The constants are arbitrary, so each scan is followed through the
list of entries, and nothing it finds reaches from one entry into the next:

* the scan for `PUSH4` finds the constant of every entry (`found_push4`);
* the scan for comparisons finds something only behind the constant `80600435`, which looks like
  the start of a comparison itself (`found_comparisons`);
* the scan for jump tables finds nothing (`found_jumpTables`).

The main statement is `selectors_code`: what the scans find together, and what is recognised of it.
-/

namespace ContractSurvey.Bytecode

/-- The eight digits of a selector. -/
structure SelectorDigits where
  chars : List Char
  length_eq : chars.length = 8
  isLower : ∀ c ∈ chars, Hex.isLower c = true

def SelectorDigits.selector (s : SelectorDigits) : Selector := "0x" ++ String.ofList s.chars

namespace Dispatcher

/-! ### The code of a dispatcher -/

/-- Loads the selector of the call. -/
def prologue : List Char := "6080604052600436106100ee5760003560e01c".toList

/-- `DUP1 PUSH4`, the constant, and `EQ PUSH2 0x0041 JUMPI`. -/
def entry (s : SelectorDigits) : List Char :=
  "8063".toList ++ (s.chars ++ "1461004157".toList)

/-- Reverts a call that no entry answers. -/
def closing : List Char := "5b600080fd".toList

def digits (ss : List SelectorDigits) : List Char := prologue ++ (ss.flatMap entry ++ closing)

def code (ss : List SelectorDigits) : String := "0x" ++ String.ofList (digits ss)

theorem isLower_digits (ss : List SelectorDigits) : ∀ c ∈ digits ss, Hex.isLower c = true := by
  have hprologue : prologue.all Hex.isLower = true := by decide
  have hclosing : closing.all Hex.isLower = true := by decide
  have hfront : "8063".toList.all Hex.isLower = true := by decide
  have hrear : "1461004157".toList.all Hex.isLower = true := by decide
  have hentry (s : SelectorDigits) : (entry s).all Hex.isLower = true := by
    rw [entry, List.all_append, List.all_append, hfront, List.all_eq_true.mpr s.isLower, hrear]
    rfl
  refine List.all_eq_true.mp ?_
  rw [digits, List.all_append, List.all_append, List.all_flatMap, hprologue, hclosing]
  simp [hentry]

/-! ### The three scans -/

variable {shape : Shape} {ss : List SelectorDigits}

/-- A scan that takes the entries one by one, with nothing in the prologue or the closing. -/
theorem found_digits {finds : SelectorDigits → List (List Char)}
    (hprologue : shape.avoids (.known prologue) = true)
    (hclosing : shape.avoids (.known closing) = true)
    (hentry : ∀ s rest, shape.foundFrom 0 (entry s ++ rest) = finds s ++ shape.foundFrom 0 rest) :
    shape.found (digits ss) = ss.flatMap finds := by
  rw [Shape.found, digits, Shape.foundFrom_known hprologue]
  induction ss with
  | nil => simpa [Shape.foundFrom] using Shape.foundFrom_known hclosing []
  | cons s ss ih =>
      rw [List.flatMap_cons, List.flatMap_cons, List.append_assoc, hentry, ih]

theorem fits_push4 (s : SelectorDigits) : push4Shape.fits ("63".toList ++ s.chars) = true := by
  rw [push4Shape, Shape.fits_append rfl, eightDigits,
    Shape.fits_digits s.length_eq.ge s.isLower, Bool.and_true]
  rfl

/-- The scan for `PUSH4` finds the constant of every entry. -/
theorem found_push4 :
    push4Shape.found (digits ss) = ss.flatMap fun s => ["63".toList ++ s.chars] := by
  refine found_digits (by decide) (by decide) fun s rest => ?_
  have hsplit : entry s ++ rest =
      "80".toList ++ (("63".toList ++ s.chars) ++ ("1461004157".toList ++ rest)) := by
    simp [entry]
  rw [hsplit, Shape.foundFrom_known (by decide), Shape.foundFrom_of_fits _ (by simp) (fits_push4 s),
    Shape.foundFrom_known (by decide)]
  · rfl
  · rw [List.length_append, s.length_eq]
    rfl

/-- The constant that looks like the start of a comparison. -/
def misread : List Char := "80600435".toList

theorem fits_comparison_of_ne {cs : List Char} (hlen : cs.length = 8) (h : cs ≠ misread)
    (rest : List Char) : dispatcherShape.fits (cs ++ rest) = false := by
  have hsplit : dispatcherShape =
      Shape.word "80600435" ++ (Shape.word "1" ++ (["014".toList] ++ eightDigits)) := rfl
  rw [hsplit, Shape.fits_append (by rw [hlen]; rfl), Bool.and_eq_false_iff]
  refine .inl (Bool.eq_false_iff.mpr fun hfits => h ?_)
  exact ((Shape.fits_word.mp hfits).eq_of_length (by rw [hlen]; rfl)).symm

/-- The scan for comparisons finds something only behind `80600435`. -/
theorem found_comparisons : dispatcherShape.found (digits ss) =
    ss.flatMap fun s => if s.chars = misread then ["806004351461004157".toList] else [] := by
  refine found_digits (by decide) (by decide) fun s rest => ?_
  rw [entry, List.append_assoc, Shape.foundFrom_known (by decide)]
  by_cases h : s.chars = misread
  · rw [if_pos h, h]
    exact Shape.foundFrom_of_fits (by decide) (by decide) (by decide) rest
  · rw [if_neg h]
    have hfits := fits_comparison_of_ne s.length_eq h ("1461004157".toList ++ rest)
    have hlen := s.length_eq
    cases hs : s.chars with
    | nil => simp [hs] at hlen
    | cons c cs =>
        rw [hs, List.length_cons, Nat.succ.injEq] at hlen
        rw [hs, List.cons_append] at hfits
        -- Behind the first digit, at most six more stand before the fixed characters.
        have hrear : (Outline.unknown 7 ++ .known "1461004157".toList).Describes
            (cs ++ "1461004157".toList) := by
          rw [← hlen]
          exact (Outline.describes_unknown cs).append (Outline.describes_known _)
        rw [List.append_assoc, List.cons_append, Shape.foundFrom_skip hfits, ← List.append_assoc,
          Shape.foundFrom_of_avoids hrear (by decide)]
        rfl

/-- The scan for jump tables finds nothing. -/
theorem found_jumpTables : jumpTableShape.found (digits ss) = ss.flatMap fun _ => [] := by
  refine found_digits (by decide) (by decide) fun s rest => ?_
  have hentry : (Outline.known "8063".toList ++ (Outline.unknown 8 ++
      .known "1461004157".toList)).Describes (entry s) := by
    rw [← s.length_eq]
    exact (Outline.describes_known _).append
      ((Outline.describes_unknown s.chars).append (Outline.describes_known _))
  exact Shape.foundFrom_of_avoids hentry (by decide) rest

/-! ### The selectors -/

theorem mem_scan {t : Selector} :
    t ∈ scan shape (digits ss) ↔ ∃ piece ∈ shape.found (digits ss), selectorOf piece = t := by
  rw [scan, normalize_of_isLower (isLower_digits ss), Sequence.mem_distinct, List.mem_map]

/-- A piece that ends in the digits of a selector yields it. -/
theorem selectorOf_append (front : List Char) (s : SelectorDigits) :
    selectorOf (front ++ s.chars) = s.selector := by
  have hdrop : (front ++ s.chars).drop ((front ++ s.chars).length - 8) = s.chars := by
    rw [List.length_append, s.length_eq, Nat.add_sub_cancel, List.drop_left]
  have hmark : "0x" = String.ofList ['0', 'x'] := rfl
  rw [selectorOf, hdrop, SelectorDigits.selector, hmark, ← String.ofList_append]
  rfl

theorem mem_scanPush4 {t : Selector} :
    t ∈ scanPush4 (digits ss) ↔ ∃ s ∈ ss, s.selector = t := by
  rw [scanPush4, mem_scan, found_push4]
  simp only [List.mem_flatMap, List.mem_singleton]
  constructor
  · rintro ⟨_, ⟨s, hs, rfl⟩, rfl⟩
    exact ⟨s, hs, (selectorOf_append _ s).symm⟩
  · rintro ⟨s, hs, rfl⟩
    exact ⟨_, ⟨s, hs, rfl⟩, selectorOf_append _ s⟩

theorem mem_scanDispatcher {t : Selector} :
    t ∈ scanDispatcher (digits ss) ↔ t = "0x61004157" ∧ ∃ s ∈ ss, s.chars = misread := by
  have hselector : selectorOf "806004351461004157".toList = "0x61004157" := by decide
  rw [scanDispatcher, mem_scan, found_comparisons]
  constructor
  · rintro ⟨piece, hpiece, rfl⟩
    obtain ⟨s, hs, hpiece⟩ := List.mem_flatMap.mp hpiece
    split at hpiece
    · next h =>
        rw [List.mem_singleton.mp hpiece]
        exact ⟨hselector, s, hs, h⟩
    · cases hpiece
  · rintro ⟨rfl, s, hs, h⟩
    refine ⟨_, List.mem_flatMap.mpr ⟨s, hs, ?_⟩, hselector⟩
    rw [if_pos h]
    exact List.mem_singleton_self _

theorem not_mem_scanJumpTable {t : Selector} : t ∉ scanJumpTable (digits ss) := by
  rw [scanJumpTable, mem_scan, found_jumpTables]
  simp

theorem mem_selectors_code {t : Selector} :
    t ∈ selectors (some (code ss)) ↔
      (∃ s ∈ ss, s.selector = t) ∨ t = "0x61004157" ∧ ∃ s ∈ ss, s.chars = misread := by
  have htext : text (some (code ss)) = digits ss := text_marked (isLower_digits ss)
  have hne : (digits ss).isEmpty = false := rfl
  rw [selectors, htext, hne]
  simp only [Bool.false_eq_true, if_false, Sequence.mem_distinct, List.mem_append, mem_scanPush4,
    mem_scanDispatcher, not_mem_scanJumpTable, or_false]

theorem nodup_selectors_of_code (c : Option String) : (selectors c).Nodup := by
  rw [selectors]
  split
  · exact List.nodup_nil
  · exact Sequence.nodup_distinct _

theorem lower_selector (s : SelectorDigits) : Text.lower s.selector = s.selector := by
  have hnumeral : ∀ c ∈ s.selector.toList, Text.isNumeral c = true := by
    simp only [SelectorDigits.selector, String.toList_append, List.forall_mem_append,
      String.toList_ofList]
    exact ⟨List.all_eq_true.mp (by decide),
      fun c hc => Text.isNumeral_of_isLower (s.isLower c hc)⟩
  rw [Text.lower, Text.lowerChars_of_isNumeral hnumeral, String.ofList_toList]

theorem lookup?_misreading : Signature.lookup? (Text.lower "0x61004157") = none := by
  have hlower : Text.lower "0x61004157" = "0x61004157" := by decide
  rw [hlower]
  exact Signature.lookup?_eq_none (by decide)

/-- What is recognised in the code of a dispatcher are the constants that the dictionary knows. -/
theorem mem_classify_code {t : Selector} :
    t ∈ (Pattern.classify (selectors (some (code ss))) (some (code ss))).map (·.selector) ↔
      (∃ s ∈ ss, s.selector = t) ∧ t ∈ Signature.dictionary.map (·.selector) := by
  rw [List.mem_map, ← Signature.exists_lookup?_iff]
  constructor
  · rintro ⟨q, hq, rfl⟩
    obtain ⟨u, hu, e, he, rfl⟩ := Profile.mem_classify.mp hq
    rcases mem_selectors_code.mp hu with ⟨s, hs, rfl⟩ | ⟨rfl, -⟩
    · have hselector : e.selector = Text.lower s.selector := (Signature.lookup?_eq_some he).2
      refine ⟨⟨s, hs, ?_⟩, e, ?_⟩
      · exact (lower_selector s).symm.trans hselector.symm
      · exact (congrArg Signature.lookup? hselector).trans he
    · rw [lookup?_misreading] at he
      cases he
  · rintro ⟨⟨s, hs, rfl⟩, e, he⟩
    refine ⟨Pattern.ofSignature (text (some (code ss))) e, ?_, (Signature.lookup?_eq_some he).2⟩
    exact Profile.mem_classify.mpr ⟨s.selector, mem_selectors_code.mpr (.inl ⟨s, hs, rfl⟩), e,
      (congrArg Signature.lookup? (lower_selector s)).trans he, rfl⟩

/-- **Dispatchers are read back.**  The scans of a dispatcher's code find the constants of its
entries, and `0x61004157` behind the constant `80600435`, each once; the functions recognised are
the constants that the dictionary knows, each once. -/
theorem selectors_code (ss : List SelectorDigits) :
    (∀ t, t ∈ selectors (some (code ss)) ↔
      (∃ s ∈ ss, s.selector = t) ∨ t = "0x61004157" ∧ ∃ s ∈ ss, s.chars = misread) ∧
    (selectors (some (code ss))).Nodup ∧
    (∀ t, t ∈ (Pattern.classify (selectors (some (code ss))) (some (code ss))).map (·.selector) ↔
      (∃ s ∈ ss, s.selector = t) ∧ t ∈ Signature.dictionary.map (·.selector)) ∧
    ((Pattern.classify (selectors (some (code ss))) (some (code ss))).map (·.selector)).Nodup :=
  ⟨fun _ => mem_selectors_code, nodup_selectors_of_code _, fun _ => mem_classify_code,
    Profile.nodup_selectors_classify _ _⟩

example : selectors (some (code [⟨"a9059cbb".toList, rfl, List.all_eq_true.mp (by decide)⟩,
    ⟨"80600435".toList, rfl, List.all_eq_true.mp (by decide)⟩])) =
      ["0xa9059cbb", "0x80600435", "0x61004157"] := by
  decide +kernel

end Dispatcher

end ContractSurvey.Bytecode
