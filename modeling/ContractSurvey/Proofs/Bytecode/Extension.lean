import ContractSurvey.Bytecode.Trailer
import ContractSurvey.Proofs.Bytecode.Selectors
import ContractSurvey.Proofs.Bytecode.Sweep

/-!
# Proofs — Bytecode — Extension

Code that goes on.  Text behind the digits of a code changes nothing that was found in them:

* a scan decides about a place by the characters from there to the end of the shape, so that it
  finds in a longer text what it found before, and then more (`foundFrom_append`);
* the sweep meets the same instructions, the last push included, whose immediate the end of the
  code may have cut off (`startsFrom_append_prefix`).

The text behind is arbitrary ASCII.  Blanks at its end are trimmed, and the digits in front of it
stay what they are, unless they are a single `0` and an `x` behind it makes that the mark of a code
(`continues_append`).
-/

namespace ContractSurvey

namespace Bytecode

/-! ### Scans -/

namespace Shape

variable {shape : Shape} {cs : List Char}

/-- Whether a shape fits depends on as many characters as it has places. -/
theorem fits_append_left (h : shape.length ≤ cs.length) (ds : List Char) :
    shape.fits (cs ++ ds) = shape.fits cs := by
  rw [Bool.eq_iff_iff, fits_iff, fits_iff, List.take_append_of_le_length h]

theorem foundFrom_of_short (h : cs.length < shape.length) (skip : Nat) :
    shape.foundFrom skip cs = [] := by
  fun_induction foundFrom with
  | case1 => rfl
  | case2 skip c rest ih => exact ih (by rw [List.length_cons] at h; omega)
  | case3 c rest hfits ih => exact absurd (length_le_of_fits hfits) (Nat.not_le.mpr h)
  | case4 c rest hfits ih => exact ih (by rw [List.length_cons] at h; omega)

/-- What a scan finds in a text it finds first in every text that goes on from it. -/
theorem foundFrom_append (skip : Nat) (cs ds : List Char) :
    shape.foundFrom skip cs <+: shape.foundFrom skip (cs ++ ds) := by
  fun_induction foundFrom shape skip cs with
  | case1 => exact List.nil_prefix
  | case2 skip c rest ih => exact ih
  | case3 c rest hfits ih =>
      have hlen := length_le_of_fits hfits
      rw [List.cons_append, foundFrom, ← List.cons_append, fits_append_left hlen, if_pos hfits,
        List.take_append_of_le_length hlen, List.cons_prefix_cons]
      exact ⟨rfl, ih⟩
  | case4 c rest hfits ih =>
      rcases Nat.lt_or_ge (c :: rest).length shape.length with hshort | hlen
      · -- behind the end the shape may fit, and nothing more is found before it
        rw [foundFrom_of_short (by rw [List.length_cons] at hshort; omega)]
        exact List.nil_prefix
      · rw [List.cons_append, foundFrom, ← List.cons_append, fits_append_left hlen, if_neg hfits]
        exact ih

theorem found_prefix {ds : List Char} (h : cs <+: ds) : shape.found cs <+: shape.found ds := by
  obtain ⟨rest, rfl⟩ := h
  exact foundFrom_append 0 cs rest

/-- A search for the first fit ends with the first piece that the scan finds. -/
theorem first?_eq_head? (shape : Shape) (cs : List Char) :
    shape.first? cs = (shape.found cs).head? := by
  fun_induction first? shape cs with
  | case1 => rfl
  | case2 c rest hfits => rw [found, foundFrom, if_pos hfits, List.head?_cons]
  | case3 c rest hfits ih => rw [ih, found, found, foundFrom, if_neg hfits]

end Shape

/-- Occurrences of a word that do not overlap are what its shape finds. -/
theorem countApart_eq_length (word : List Char) (skip : Nat) (cs : List Char) :
    Text.countApart word skip cs = (Shape.foundFrom (word.map ([·])) skip cs).length := by
  have hfits (cs : List Char) : Shape.fits (word.map ([·])) cs = word.isPrefixOf cs := by
    rw [Bool.eq_iff_iff, Shape.fits_map_singleton, List.isPrefixOf_iff_prefix]
  fun_induction Text.countApart word skip cs with
  | case1 => rfl
  | case2 skip c rest ih => exact ih
  | case3 c rest hword ih =>
      rw [Shape.foundFrom, hfits, if_pos hword, List.length_cons, List.length_map, ih, Nat.add_comm]
  | case4 c rest hword ih => rw [Shape.foundFrom, hfits, if_neg hword, ih]

theorem occurrences_mono {cs ds : List Char} (h : cs <+: ds) (word : List Char) :
    Text.occurrences word cs ≤ Text.occurrences word ds := by
  rw [Text.occurrences, Text.occurrences]
  split
  · exact Nat.succ_le_succ h.length_le
  · rw [countApart_eq_length, countApart_eq_length]
    exact (Shape.found_prefix h).length_le

/-! ### The sweep -/

/-- The instructions of some bytes are the first ones when the bytes go on. -/
theorem startsFrom_append_prefix (skip : Nat) (as bs : List UInt8) :
    startsFrom skip as <+: startsFrom skip (as ++ bs) := by
  fun_induction startsFrom skip as with
  | case1 => exact List.nil_prefix
  | case2 skip b rest ih => exact ih
  | case3 op rest ih =>
      rw [List.cons_append, startsFrom, List.cons_prefix_cons]
      exact ⟨rfl, ih⟩

/-! ### Texts -/

variable {cs ds : List Char}

/-- Behind digits other than a single `0` nothing makes a mark of them. -/
theorem dropMark_append (hcs : ∀ c ∈ cs, Hex.isLower c = true) (hne : cs ≠ [])
    (hzero : cs ≠ ['0']) (ds : List Char) : dropMark (cs ++ ds) = cs ++ ds := by
  cases cs with
  | nil => exact absurd rfl hne
  | cons c cs =>
      unfold dropMark
      split
      · next rest heq =>
          -- the `x` of a mark is no digit
          cases cs with
          | nil => exact absurd (congrArg (fun c => [c]) (List.cons.inj heq).1) hzero
          | cons d cs =>
              obtain rfl : d = 'x' := (List.cons.inj (List.cons.inj heq).2).1
              exact absurd (hcs 'x' (by simp)) (by decide)
      · rfl

/-- Behind digits the normal text goes on from them, and so does the normal text of that. -/
theorem prefix_normalize (hcs : ∀ c ∈ cs, Hex.isDigit c = true) (hne : cs ≠ [])
    (hzero : cs.map Char.toLower ≠ ['0']) (hds : ∀ c ∈ ds, c.toNat < 128) :
    cs.map Char.toLower <+: normalize (cs ++ ds) ∧
      cs.map Char.toLower <+: normalize (normalize (cs ++ ds)) := by
  have hlower : ∀ c ∈ cs.map Char.toLower, Hex.isLower c = true := isLower_of_mem_map_toLower hcs
  have hnumeral : ∀ c ∈ cs, Text.isNumeral c.toLower = true := fun c hc =>
    Text.isNumeral_of_isLower (hlower _ (List.mem_map_of_mem hc))
  have hne' : cs.map Char.toLower ≠ [] := by simpa using hne
  obtain ⟨rest, hrest, htrim⟩ :=
    Text.trim_append (fun c hc => Text.isBlank_of_toLower (hnumeral c hc)) hne ds
  have hascii : ∀ c ∈ cs ++ rest, c.toNat < 128 := List.forall_mem_append.mpr
    ⟨fun c hc => Text.toNat_lt_of_toLower (hnumeral c hc), fun c hc => hds c (hrest.subset hc)⟩
  have hnormal : normalize (cs ++ ds) = cs.map Char.toLower ++ rest.map Char.toLower := by
    rw [normalize, htrim, Text.lowerChars_of_ascii hascii, List.map_append,
      dropMark_append hlower hne' hzero]
  have hblank : ∀ c ∈ cs.map Char.toLower, Text.isBlank c = false := fun c hc =>
    Text.isBlank_of_isNumeral (Text.isNumeral_of_isLower (hlower c hc))
  obtain ⟨rest', -, htrim'⟩ := Text.trim_append hblank hne' (rest.map Char.toLower)
  rw [normalize_normalize, hnormal, htrim', dropMark_append hlower hne' hzero]
  exact ⟨List.prefix_append _ _, List.prefix_append _ _⟩

/-- One code goes on in the other: so do the texts that are read of them. -/
structure Continues (code longer : Option String) : Prop where
  isLower : ∀ c ∈ text code, Hex.isLower c = true
  texts : text code <+: text longer ∧ text code <+: normalize (text longer)

/-- ASCII behind digits continues them, unless the digits are a single `0`. -/
theorem continues_append {front rear : String} (hfront : ∀ c ∈ front.toList, Hex.isDigit c = true)
    (hzero : text (some front) ≠ ['0']) (hrear : ∀ c ∈ rear.toList, c.toNat < 128) :
    Continues (some front) (some (front ++ rear)) := by
  have htext : text (some front) = front.toList.map Char.toLower := by
    rw [← text_digits hfront, String.ofList_toList]
  refine ⟨htext ▸ isLower_of_mem_map_toLower hfront, ?_⟩
  rw [htext] at hzero ⊢
  by_cases hne : front.toList = []
  · rw [hne]
    exact ⟨List.nil_prefix, List.nil_prefix⟩
  · rw [text, String.toList_append]
    exact prefix_normalize hfront hne hzero hrear

/-! ### What is found -/

section Found

variable {code longer : Option String}

theorem scan_subset {shape : Shape} {cs ds : List Char} (h : normalize cs <+: normalize ds) :
    scan shape cs ⊆ scan shape ds := by
  intro s
  simp only [scan, Sequence.mem_distinct, List.mem_map]
  rintro ⟨piece, hpiece, rfl⟩
  exact ⟨piece, (Shape.found_prefix h).subset hpiece, rfl⟩

theorem Continues.selectors_subset (h : Continues code longer) :
    selectors code ⊆ selectors longer := by
  have hnormal : normalize (text code) <+: normalize (text longer) := by
    rw [normalize_of_isLower h.isLower]
    exact h.texts.2
  rw [selectors, selectors]
  cases htext : text code with
  | nil => exact List.nil_subset _
  | cons c cs =>
      have hlonger : (text longer).isEmpty = false := by
        obtain ⟨rest, hrest⟩ := h.texts.1
        rw [← hrest, htext]
        rfl
      rw [htext] at hnormal
      intro s
      simp only [hlonger, List.isEmpty_cons, Bool.false_eq_true, if_false, Sequence.mem_distinct,
        List.mem_append]
      rintro ((hs | hs) | hs)
      · exact .inl (.inl (scan_subset hnormal hs))
      · exact .inl (.inr (scan_subset hnormal hs))
      · exact .inr (scan_subset hnormal hs)

theorem Continues.instructions_prefix (h : Continues code longer) :
    instructions code <+: instructions longer := by
  obtain ⟨rest, hrest⟩ := bytes_prefix h.isLower h.texts.1
  rw [instructions, instructions, ← hrest]
  exact startsFrom_append_prefix 0 _ rest

theorem Continues.opcodeCounts_le (h : Continues code longer) (m : String) :
    ((opcodeCounts code).get? m).getD 0 ≤ ((opcodeCounts longer).get? m).getD 0 := by
  rw [opcodeCounts, opcodeCounts, getD_tally, getD_tally]
  exact (h.instructions_prefix.map Opcode.name).sublist.count_le m

theorem Continues.trailer?_eq (h : Continues code longer) {t : Trailer}
    (ht : trailer? code = some t) : trailer? longer = some t := by
  rw [trailer?, Shape.first?_eq_head?] at ht ⊢
  have hfound : trailerShape.found (text code) <+: trailerShape.found (text longer) :=
    Shape.found_prefix h.texts.1
  obtain ⟨rest, hrest⟩ := hfound
  obtain ⟨piece, hpiece, rfl⟩ := Option.map_eq_some_iff.mp ht
  rw [← hrest, List.head?_append_of_ne_nil _ (by rintro hnil; simp [hnil] at hpiece), hpiece]
  rfl

theorem opcodeFlags_subset
    (h : ∀ m, ((opcodeCounts code).get? m).getD 0 ≤ ((opcodeCounts longer).get? m).getD 0) :
    opcodeFlags code ⊆ opcodeFlags longer := by
  intro m
  simp only [opcodeFlags, List.mem_filter, decide_eq_true_eq]
  exact And.imp_right fun hpos => Nat.lt_of_lt_of_le hpos (h m)

end Found

end Bytecode

end ContractSurvey
