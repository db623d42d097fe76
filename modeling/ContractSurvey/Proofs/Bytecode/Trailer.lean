import ContractSurvey.Bytecode.Trailer
import ContractSurvey.Proofs.Bytecode.Scan
import ContractSurvey.Proofs.Bytecode.Text
import ContractSurvey.Proofs.Text.Hex

/-!
# Proofs — Bytecode — Trailer

Which trailer is found in a code that ends in one.  The search takes the first head of an entry that
has its hash behind it, from the left, and the trailer of the code stands at its right end.

The first letter of the head does not occur in it again, so two heads never overlap
(`prefix_of_prefix_append`).  A head that starts before another one therefore stands entirely before
it, and in digits the first head is followed by enough of them to be taken (`trailer?_of_first`).
So `trailer_of_ending` needs to look at the front of the code alone: without a head in it the
trailer of the code is found, and otherwise what stands behind the first head of the front.
-/

namespace ContractSurvey.Bytecode

/-! ### Heads -/

/-- The head of the entry, as characters. -/
def ipfsHead : List Char := ipfsMark.toList

theorem isLower_ipfsHead : ∀ c ∈ ipfsHead, Hex.isLower c = true := List.all_eq_true.mp (by decide)

/-- A word whose first letter does not occur in it again, and that starts before another place with
that letter, ends before it. -/
theorem prefix_of_prefix_append {c : Char} {word front rear : List Char} (hc : c ∉ word)
    (hne : front ≠ []) (h : c :: word <+: front ++ c :: rear) : c :: word <+: front := by
  have hplace : front ++ [c] <+: front ++ c :: rear := (List.prefix_append_right_inj front).mpr
    ⟨rear, rfl⟩
  have hagain : ¬ front ++ [c] <+: c :: word := by
    intro hplaces
    cases front with
    | nil => exact hne rfl
    | cons d front =>
        rw [List.cons_append, List.cons_prefix_cons] at hplaces
        exact hc (hplaces.2.subset (by simp))
  rcases List.prefix_or_prefix_of_prefix h hplace with hword | hword
  · rcases List.prefix_concat_iff.mp hword with heq | hfront
    · exact absurd (heq ▸ List.prefix_rfl) hagain
    · exact hfront
  · exact absurd hword hagain

/-- A head that starts before another one stands before it. -/
theorem ipfsHead_stands_before {front rear : List Char} {q : Nat} (hq : q < front.length)
    (h : ipfsHead <+: (front ++ (ipfsHead ++ rear)).drop q) : ipfsHead <:+: front := by
  have hne : front.drop q ≠ [] := by
    rw [Ne, List.drop_eq_nil_iff]
    omega
  rw [List.drop_append_of_le_length (Nat.le_of_lt hq)] at h
  have hbefore : 'a' :: ipfsHead.tail <+: front.drop q :=
    prefix_of_prefix_append (by decide) hne h
  exact hbefore.isInfix.trans (List.drop_suffix q front).isInfix

/-- A word that stands in a text stands in it for a first time. -/
theorem exists_first {word cs : List Char} (hne : word ≠ []) (h : word <:+: cs) :
    ∃ before rear, cs = before ++ (word ++ rear) ∧ ¬ word <:+: before := by
  obtain ⟨before, rear, hsplit⟩ := h
  -- from any place to an earlier one, as long as there is one
  induction hlen : before.length using Nat.strong_induction_on generalizing before rear with
  | _ n ih =>
      by_cases hagain : word <:+: before
      · obtain ⟨first, between, hbefore⟩ := hagain
        have hpos := List.length_pos_iff.mpr hne
        refine ih first.length ?_ first (between ++ word ++ rear) ?_ rfl
        · rw [← hlen, ← hbefore, List.length_append, List.length_append]
          omega
        · rw [← hsplit, ← hbefore]
          simp only [List.append_assoc]
      · exact ⟨before, rear, by rw [← hsplit, List.append_assoc], hagain⟩

/-! ### The first entry -/

theorem trailerShape_eq : trailerShape = Shape.word ipfsMark ++ List.replicate 68 hexSet := rfl

theorem ipfsHead_prefix_of_fits {cs : List Char} (h : trailerShape.fits cs = true) :
    ipfsHead <+: cs := by
  rw [trailerShape_eq, Shape.fits_append_drop, Bool.and_eq_true] at h
  exact Shape.fits_word.mp h.1

theorem fits_ipfsHead {rear : List Char} (hrear : ∀ c ∈ rear, Hex.isLower c = true)
    (hlen : 68 ≤ rear.length) : trailerShape.fits (ipfsHead ++ rear) = true := by
  rw [trailerShape_eq, Shape.fits_append rfl, Shape.fits_digits hlen hrear, Bool.and_true]
  exact Shape.fits_word.mpr List.prefix_rfl

/-- The first head in a text of digits is taken, with the digits behind it. -/
theorem first?_ipfsHead {front rear : List Char} (hfirst : ¬ ipfsHead <:+: front)
    (hrear : ∀ c ∈ rear, Hex.isLower c = true) (hlen : 68 ≤ rear.length) :
    trailerShape.first? (front ++ (ipfsHead ++ rear)) = some (ipfsHead ++ rear.take 68) := by
  have hbefore : ∀ q < front.length,
      trailerShape.fits ((front ++ (ipfsHead ++ rear)).drop q) = false := by
    intro q hq
    rw [Bool.eq_false_iff]
    exact fun hfits => hfirst (ipfsHead_stands_before hq (ipfsHead_prefix_of_fits hfits))
  have hlength : trailerShape.length = ipfsHead.length + 68 := rfl
  have hne : ipfsHead ++ rear ≠ [] := List.cons_ne_nil _ _
  rw [Shape.first?_append hbefore, Shape.first?_of_fits hne (fits_ipfsHead hrear hlen), hlength,
    List.take_length_add_append]

/-- The trailer found in digits has the hash that stands behind the first head. -/
theorem trailer?_of_first {cs front rear : List Char} (hcs : ∀ c ∈ cs, Hex.isDigit c = true)
    (hsplit : cs.map Char.toLower = front ++ (ipfsHead ++ rear)) (hfirst : ¬ ipfsHead <:+: front)
    (hlen : 68 ≤ rear.length) :
    trailer? (some (String.ofList cs)) = some ⟨some (String.ofList (rear.take 68))⟩ := by
  have hrear : ∀ c ∈ rear, Hex.isLower c = true := by
    intro c hc
    refine isLower_of_mem_map_toLower hcs c ?_
    rw [hsplit]
    simp [hc]
  rw [trailer?, text_digits hcs, hsplit, first?_ipfsHead hfirst hrear hlen, Option.map_some]
  rfl

/-! ### Code that ends in a trailer -/

/-- The hash of a file: the kind of the hash, its length, and the digest. -/
def multihash (digest : List UInt8) : List Char := "1220".toList ++ Hex.ofBytes digest

/-- The trailer that the compiler appends: the entry of the hash, that of the compiler's version
`0.8.20`, and the length of both. -/
def ending (digest : List UInt8) : List Char :=
  ipfsHead ++ (multihash digest ++ "64736f6c63430008140033".toList)

theorem isLower_ending (digest : List UInt8) : ∀ c ∈ ending digest, Hex.isLower c = true := by
  have hkind : ∀ c ∈ "1220".toList, Hex.isLower c = true := List.all_eq_true.mp (by decide)
  have hversion : ∀ c ∈ "64736f6c63430008140033".toList, Hex.isLower c = true :=
    List.all_eq_true.mp (by decide)
  simp only [ending, multihash, List.forall_mem_append]
  exact ⟨isLower_ipfsHead, ⟨hkind, fun _ => Hex.isLower_of_mem_ofBytes⟩, hversion⟩

theorem isDigit_ending (digest : List UInt8) : ∀ c ∈ ending digest, Hex.isDigit c = true :=
  fun c hc => Hex.isDigit_iff.mpr (.inl (isLower_ending digest c hc))

theorem map_toLower_ending (digest : List UInt8) :
    (ending digest).map Char.toLower = ending digest := by
  conv_rhs => rw [← List.map_id (ending digest)]
  exact List.map_congr_left fun c hc =>
    Text.toLower_of_isNumeral (Text.isNumeral_of_isLower (isLower_ending digest c hc))

theorem length_multihash {digest : List UInt8} (h : digest.length = 32) :
    (multihash digest).length = 68 := by
  have hkind : "1220".toList.length = 4 := rfl
  rw [multihash, List.length_append, hkind, Hex.length_ofBytes, h]

/-- Behind the hash of 32 bytes stands the rest of the trailer. -/
theorem take_multihash {digest : List UInt8} (h : digest.length = 32) (rear : List Char) :
    (multihash digest ++ rear).take 68 = multihash digest := by
  rw [← length_multihash h, List.take_left]

section Appended

variable {front : List Char} {digest : List UInt8}

/-- A head in front comes first. -/
theorem trailer?_of_head {before rear : List Char} (hfront : ∀ c ∈ front, Hex.isDigit c = true)
    (hdigest : digest.length = 32) (hsplit : front.map Char.toLower = before ++ (ipfsHead ++ rear))
    (hfirst : ¬ ipfsHead <:+: before) :
    trailer? (some (String.ofList (front ++ ending digest))) =
      some ⟨some (String.ofList ((rear ++ ending digest).take 68))⟩ := by
  have hdigits := List.forall_mem_append.mpr ⟨hfront, isDigit_ending digest⟩
  have hlong : 68 ≤ (rear ++ ending digest).length := by
    have hhash := length_multihash hdigest
    simp only [ending, List.length_append]
    omega
  refine trailer?_of_first hdigits ?_ hfirst hlong
  rw [List.map_append, map_toLower_ending, hsplit, List.append_assoc, List.append_assoc]

/-- Without a head in front the trailer at the end comes first. -/
theorem trailer?_of_no_head (hfront : ∀ c ∈ front, Hex.isDigit c = true)
    (hdigest : digest.length = 32) (hnone : ¬ ipfsHead <:+: front.map Char.toLower) :
    trailer? (some (String.ofList (front ++ ending digest))) =
      some ⟨some (String.ofList (multihash digest))⟩ := by
  have hdigits := List.forall_mem_append.mpr ⟨hfront, isDigit_ending digest⟩
  have hlower : (front ++ ending digest).map Char.toLower =
      front.map Char.toLower ++ ending digest := by
    rw [List.map_append, map_toLower_ending]
  have hlong : 68 ≤ (multihash digest ++ "64736f6c63430008140033".toList).length := by
    rw [List.length_append, length_multihash hdigest]
    exact Nat.le_add_right _ _
  rw [trailer?_of_first hdigits hlower hnone hlong, take_multihash hdigest]

/-- **The trailer of a code that ends in one.**  A trailer is found whatever stands in front.  It is
the one at the end if no head of an entry stands in front, and otherwise it has the digits behind
the first head there, which may run into the end. -/
theorem trailer_of_ending (hfront : ∀ c ∈ front, Hex.isDigit c = true)
    (hdigest : digest.length = 32) :
    (trailer? (some (String.ofList (front ++ ending digest)))).isSome = true ∧
    (¬ ipfsHead <:+: front.map Char.toLower →
      trailer? (some (String.ofList (front ++ ending digest))) =
        some ⟨some (String.ofList (multihash digest))⟩) ∧
    ∀ before rear, front.map Char.toLower = before ++ (ipfsHead ++ rear) →
      ¬ ipfsHead <:+: before →
      trailer? (some (String.ofList (front ++ ending digest))) =
        some ⟨some (String.ofList ((rear ++ ending digest).take 68))⟩ := by
  refine ⟨?_, trailer?_of_no_head hfront hdigest,
    fun before rear => trailer?_of_head hfront hdigest⟩
  by_cases hnone : ipfsHead <:+: front.map Char.toLower
  · obtain ⟨before, rear, hsplit, hfirst⟩ := exists_first (List.cons_ne_nil _ _) hnone
    rw [trailer?_of_head hfront hdigest hsplit hfirst, Option.isSome_some]
  · rw [trailer?_of_no_head hfront hdigest hnone, Option.isSome_some]

/-- A truncated head in front does no harm. -/
theorem trailer_of_ending_truncated :
    (∀ c ∈ "6080A26469706673".toList, Hex.isDigit c = true) ∧
    (List.replicate 32 (0xab : UInt8)).length = 32 ∧
    ¬ ipfsHead <:+: "6080A26469706673".toList.map Char.toLower ∧
    trailer? (some (String.ofList ("6080A26469706673".toList ++ ending (List.replicate 32 0xab)))) =
      some ⟨some (String.ofList (multihash (List.replicate 32 0xab)))⟩ := by
  have hfront : ∀ c ∈ "6080A26469706673".toList, Hex.isDigit c = true :=
    List.all_eq_true.mp (by decide +kernel)
  have hdigest : (List.replicate 32 (0xab : UInt8)).length = 32 := List.length_replicate
  have hnone : ¬ ipfsHead <:+: "6080A26469706673".toList.map Char.toLower := by decide +kernel
  exact ⟨hfront, hdigest, hnone, (trailer_of_ending hfront hdigest).2.1 hnone⟩

/-- Behind the code of a contract that ends in a trailer of its own, that trailer is found. -/
theorem trailer_of_ending_nested :
    (∀ c ∈ ending (List.replicate 32 0xcd), Hex.isDigit c = true) ∧
    (List.replicate 32 (0xab : UInt8)).length = 32 ∧
    trailer? (some (String.ofList
        (ending (List.replicate 32 0xcd) ++ ending (List.replicate 32 0xab)))) =
      some ⟨some (String.ofList (multihash (List.replicate 32 0xcd)))⟩ ∧
    multihash (List.replicate 32 0xcd) ≠ multihash (List.replicate 32 0xab) := by
  have hfirst : ¬ ipfsHead <:+: [] := by decide +kernel
  have hne : multihash (List.replicate 32 0xcd) ≠ multihash (List.replicate 32 0xab) := by
    decide +kernel
  have hsplit : (ending (List.replicate 32 0xcd)).map Char.toLower = [] ++ (ipfsHead ++
      (multihash (List.replicate 32 0xcd) ++ "64736f6c63430008140033".toList)) :=
    map_toLower_ending _
  refine ⟨isDigit_ending _, List.length_replicate, ?_, hne⟩
  rw [trailer?_of_head (isDigit_ending _) List.length_replicate hsplit hfirst, List.append_assoc,
    take_multihash List.length_replicate]

end Appended

end ContractSurvey.Bytecode
