import ContractSurvey.Address.Checksum
import ContractSurvey.Bytecode.Text
import ContractSurvey.Proofs.Digest.Keccak
import ContractSurvey.Proofs.Sequence.Outcome
import ContractSurvey.Proofs.Text.Hex

/-!
# Proofs — Address — Checksum

What identifies an address.  `IsChecksum` says what is asked of a checksum form: forty digits have
one, in any case and with the mark or without, and only the digits count.  The form with the letter
case of the digest is one (`isChecksum_checksumText`).  Letter case keeps the mark: two addresses
are equal up to it exactly if they have the same digits and both or neither bear the mark
(`lower_eq_iff`).  So spellings of one address are told apart up to letter case if they differ in
the mark, and only then (`IsChecksum.differInMark_iff`).
-/

namespace ContractSurvey.Address

/-- The letters of a text in lower case, one by one. -/
def letters (text : String) : List Char := text.toList.map Char.toLower

/-- Whether the text begins with the mark of a hexadecimal number. -/
def isMarked (text : String) : Bool := ['0', 'x'].isPrefixOf (letters text)

/-- The text is an address: forty digits, behind the mark or by themselves. -/
structure IsValid (text : String) : Prop where
  digits : ∀ c ∈ plain text, Hex.isDigit c = true
  length : (plain text).length = width

/-- What is asked of a checksum form: every address has one, nothing else has, and that of an
address depends on its digits and tells them. -/
structure IsChecksum (checksum : String → Except String String) : Prop where
  accepts (text : String) : (∃ a, checksum text = .ok a) ↔ IsValid text
  same_iff {s t a b : String} (hs : checksum s = .ok a) (ht : checksum t = .ok b) :
    a = b ↔ plain s = plain t

variable {s t : String}

/-! ### The mark -/

theorem eq_of_toLower_eq_zero {c : Char} (h : c.toLower = '0') : c = '0' := by
  rcases Text.toLower_cases c with ⟨hc, -⟩ | ⟨hge, -, hcode⟩
  · exact hc.symm.trans h
  · rw [h] at hcode
    have hzero : '0'.toNat = 48 := rfl
    omega

theorem eq_of_toLower_eq_mark {c : Char} (h : c.toLower = 'x') : c = 'x' ∨ c = 'X' := by
  rcases Text.toLower_cases c with ⟨hc, -⟩ | ⟨-, -, hcode⟩
  · exact .inl (hc.symm.trans h)
  · rw [h] at hcode
    have hmark : 'x'.toNat = 120 := rfl
    have hcapital : c.toNat = 88 := by omega
    exact .inr (by rw [← Char.ofNat_toNat c, hcapital])

theorem plain_eq_dropMark (s : String) : plain s = Bytecode.dropMark (letters s) := by
  unfold plain letters
  generalize s.toList = cs
  unfold unmarked
  split
  · rfl
  · rfl
  · next hlower hcapital =>
      unfold Bytecode.dropMark
      split
      · next heq =>
          -- The letters are marked, so the text is too.
          obtain ⟨c, cs, rfl, hc, hcs⟩ := List.map_eq_cons_iff.mp heq
          obtain ⟨d, ds, rfl, hd, -⟩ := List.map_eq_cons_iff.mp hcs
          obtain rfl := eq_of_toLower_eq_zero hc
          rcases eq_of_toLower_eq_mark hd with rfl | rfl
          · exact absurd rfl (hlower ds)
          · exact absurd rfl (hcapital ds)
      · rfl

/-- A text is its mark, if it has one, before its digits. -/
theorem letters_eq (s : String) :
    letters s = (if isMarked s then ['0', 'x'] else []) ++ plain s := by
  rw [plain_eq_dropMark, isMarked]
  by_cases h : ['0', 'x'].isPrefixOf (letters s) = true
  · obtain ⟨rest, hrest⟩ := List.isPrefixOf_iff_prefix.mp h
    rw [if_pos h, ← hrest]
    rfl
  · rw [if_neg h, List.nil_append]
    unfold Bytecode.dropMark
    split
    · next heq => exact absurd (heq ▸ rfl) h
    · rfl

theorem letters_eq_iff :
    letters s = letters t ↔ plain s = plain t ∧ isMarked s = isMarked t := by
  constructor
  · intro h
    rw [plain_eq_dropMark, plain_eq_dropMark, isMarked, isMarked, h]
    exact ⟨rfl, rfl⟩
  · rintro ⟨hplain, hmark⟩
    rw [letters_eq s, letters_eq t, hplain, hmark]

/-! ### Valid addresses -/

theorem IsValid.of_plain_eq (h : IsValid s) (hplain : plain t = plain s) : IsValid t where
  digits := hplain ▸ h.digits
  length := hplain ▸ h.length

/-- A digit among letters in lower case is a lower-case one. -/
theorem isLower_of_isDigit_toLower {c : Char} (h : Hex.isDigit c.toLower = true) :
    Hex.isLower c.toLower = true := by
  have hlower := Text.isLower_toLower h
  rwa [Text.toLower_toLower] at hlower

theorem isLower_plain (h : IsValid s) : ∀ c ∈ plain s, Hex.isLower c = true := by
  intro c hc
  have hdigit := h.digits c hc
  obtain ⟨d, -, rfl⟩ := List.mem_map.mp hc
  exact isLower_of_isDigit_toLower hdigit

theorem isNumeral_letters (h : IsValid s) : ∀ c ∈ letters s, Text.isNumeral c = true := by
  rw [letters_eq, List.forall_mem_append]
  refine ⟨?_, fun c hc => Text.isNumeral_of_isLower (isLower_plain h c hc)⟩
  split
  · exact List.all_eq_true.mp (by decide)
  · simp

/-- Lower case letter by letter is lower case, in an ASCII text. -/
theorem lower_of_ascii (h : ∀ c ∈ s.toList, c.toNat < 128) :
    Text.lower s = String.ofList (letters s) := by
  rw [Text.lower, Text.lowerChars_of_ascii h, letters]

theorem lower_of_isValid (h : IsValid s) : Text.lower s = String.ofList (letters s) := by
  refine lower_of_ascii fun c hc => ?_
  have hnumeral := Text.toNat_lt_of_isNumeral
    (isNumeral_letters h c.toLower (List.mem_map_of_mem hc))
  rcases Text.toLower_cases c with ⟨hsame, -⟩ | ⟨-, hle, -⟩
  · rwa [hsame] at hnumeral
  · omega

/-- A text that is an address up to letter case has the letters of the address. -/
theorem letters_eq_of_lower_eq (h : IsValid s) (hlower : Text.lower t = Text.lower s) :
    letters t = letters s := by
  have hchars : Text.lowerChars t.toList = letters s := by
    rw [lower_of_isValid h, Text.lower] at hlower
    exact String.ofList_injective hlower
  have hascii := Text.ascii_of_lowerChars (hchars ▸ isNumeral_letters h)
  rw [letters, ← Text.lowerChars_of_ascii hascii, hchars]

theorem IsValid.of_lower_eq (h : IsValid s) (hlower : Text.lower t = Text.lower s) : IsValid t :=
  h.of_plain_eq (letters_eq_iff.mp (letters_eq_of_lower_eq h hlower)).1

/-- **Letter case**: two addresses are equal up to it exactly if they have the same digits and both
or neither bear the mark. -/
theorem lower_eq_iff (hs : IsValid s) (ht : IsValid t) :
    Text.lower s = Text.lower t ↔ plain s = plain t ∧ isMarked s = isMarked t := by
  rw [← letters_eq_iff]
  constructor
  · exact letters_eq_of_lower_eq ht
  · intro h
    rw [lower_of_isValid hs, lower_of_isValid ht, h]

/-! ### Checksums -/

theorem toLower_cased {c : Char} (h : Hex.isLower c = true) (mark : Char) :
    (cased c mark).toLower = c := by
  have hupper : c.toUpper.toLower = c :=
    Hex.forall_isLower (P := fun c => c.toUpper.toLower = c) (by decide) h
  rw [cased]
  split
  · exact hupper
  · exact Text.toLower_of_isNumeral (Text.isNumeral_of_isLower h)

theorem map_toLower_zipWith_cased {digits marks : List Char}
    (h : ∀ c ∈ digits, Hex.isLower c = true) (hlen : digits.length ≤ marks.length) :
    (digits.zipWith cased marks).map Char.toLower = digits := by
  induction digits generalizing marks with
  | nil => rfl
  | cons c digits ih =>
      rw [List.forall_mem_cons] at h
      cases marks with
      | nil => simp at hlen
      | cons m marks =>
          rw [List.zipWith_cons_cons, List.map_cons, toLower_cased h.1,
            ih h.2 (Nat.le_of_succ_le_succ hlen)]

/-- The digits can be read off the checksum form, the digest being long enough. -/
theorem map_toLower_mixedCase (h : IsValid s) :
    (mixedCase (plain s)).map Char.toLower = plain s := by
  refine map_toLower_zipWith_cased (isLower_plain h) ?_
  rw [h.length, Hex.length_ofBytes, Keccak.length_digest]
  decide

theorem checksumText_of_isValid (h : IsValid s) :
    checksumText s = .ok ("0x" ++ String.ofList (mixedCase (plain s))) := by
  simp [checksumText, checksum, List.all_eq_true.mpr h.digits, h.length, Except.mapError]

theorem isValid_of_checksumText {a : String} (h : checksumText s = .ok a) : IsValid s := by
  rw [checksumText, mapError_eq_ok_iff, checksum] at h
  split at h
  · cases h
  · next hdigits =>
      split at h
      · cases h
      · next hlength =>
          exact ⟨by simpa using hdigits, Decidable.not_not.mp hlength⟩

/-- The checksum form with the letter case of the digest: the digits can be read off it. -/
theorem isChecksum_checksumText : IsChecksum checksumText where
  accepts _ := ⟨fun ⟨_, h⟩ => isValid_of_checksumText h, fun h => ⟨_, checksumText_of_isValid h⟩⟩
  same_iff {s t a b} hs ht := by
    have hvalid := isValid_of_checksumText hs
    have hvalid' := isValid_of_checksumText ht
    rw [checksumText_of_isValid hvalid] at hs
    rw [checksumText_of_isValid hvalid'] at ht
    obtain rfl := Except.ok.inj hs
    obtain rfl := Except.ok.inj ht
    constructor
    · intro h
      have hmixed : mixedCase (plain s) = mixedCase (plain t) := by
        simpa using congrArg String.toList h
      rw [← map_toLower_mixedCase hvalid, ← map_toLower_mixedCase hvalid', hmixed]
    · intro h
      rw [h]

/-- Two spellings of one address, one of them with the mark and one without. -/
def DifferInMark (s t : String) : Prop := plain s = plain t ∧ isMarked s ≠ isMarked t

namespace IsChecksum

variable {checksum : String → Except String String}

/-- **Checksums**: two addresses have the same checksum form exactly if they have the same
digits. -/
theorem eq_iff (h : IsChecksum checksum) (hs : IsValid s) (ht : IsValid t) :
    checksum s = checksum t ↔ plain s = plain t := by
  obtain ⟨a, ha⟩ := (h.accepts s).mpr hs
  obtain ⟨b, hb⟩ := (h.accepts t).mpr ht
  rw [← h.same_iff ha hb, ha, hb, Except.ok.injEq]

theorem eq_of_lower_eq (h : IsChecksum checksum) (hs : IsValid s)
    (hlower : Text.lower t = Text.lower s) : checksum t = checksum s :=
  (h.eq_iff (hs.of_lower_eq hlower) hs).mpr (letters_eq_iff.mp (letters_eq_of_lower_eq hs hlower)).1

/-- The mark is all that can tell spellings of one address apart, up to letter case. -/
theorem differInMark_iff (h : IsChecksum checksum) (hs : IsValid s) (ht : IsValid t) :
    DifferInMark s t ↔ checksum s = checksum t ∧ Text.lower s ≠ Text.lower t := by
  rw [h.eq_iff hs ht, ne_eq, lower_eq_iff hs ht, not_and]
  exact ⟨fun h => ⟨h.1, fun _ => h.2⟩, fun h => ⟨h.1, h.2 h.1⟩⟩

end IsChecksum

end ContractSurvey.Address
