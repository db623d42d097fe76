import ContractSurvey.Proofs.Bytecode.Selectors
import ContractSurvey.Proofs.Bytecode.Sweep
import ContractSurvey.Proofs.Bytecode.Taken

/-!
# Proofs — Bytecode — Push4

What the scan for `PUSH4` makes of the instructions of that name.  The scan reads the digits of a
code at every place, and the sweep goes from instruction to instruction.  Where the sweep meets a
`PUSH4` with all of its immediate, the shape fits (`drop_push4`), so the scan takes the place or has
taken one shortly before it.

The place before is never that of an instruction (`not_reached_of_covers`): there the shape begins
with the opcode of a `PUSH4`, and no instruction starts within another.  It lies in the immediate of
a push or across two bytes.  With this `selectors_push4` says which instructions are found, and
`selectors_push4_covered` has one that is not.
-/

namespace ContractSurvey.Bytecode

variable {cs : List Char} {bs : List UInt8} {i : Nat}

theorem push4Shape_ne_nil : push4Shape ≠ [] := List.cons_ne_nil _ _

theorem length_push4Shape : push4Shape.length = 10 := rfl

theorem name_push4 : Opcode.name 0x63 = "PUSH4" := by decide

/-! ### The digits of an instruction -/

/-- The immediate of the `PUSH4` at `i`. -/
def immediate (bs : List UInt8) (i : Nat) (h : i + 5 ≤ bs.length) : SelectorDigits where
  chars := Hex.ofBytes ((bs.drop (i + 1)).take 4)
  length_eq := by
    rw [Hex.length_ofBytes, List.length_take, List.length_drop]
    omega
  isLower _ := Hex.isLower_of_mem_ofBytes

theorem selector_immediate (h : i + 5 ≤ bs.length) : (immediate bs i h).selector =
    "0x" ++ String.ofList (Hex.ofBytes ((bs.drop (i + 1)).take 4)) := rfl

/-- The digits of a `PUSH4` and its immediate. -/
theorem drop_push4 (hop : (bytes cs)[i]? = some 0x63) (hlen : i + 5 ≤ (bytes cs).length) :
    "63".toList ++ (immediate (bytes cs) i hlen).chars <+: cs.drop (2 * i) := by
  obtain ⟨hi, hget⟩ := List.getElem?_eq_some_iff.mp hop
  have hbytes : (bytes cs).drop i = [0x63] ++
      (((bytes cs).drop (i + 1)).take 4 ++ ((bytes cs).drop (i + 1)).drop 4) := by
    rw [List.take_append_drop, List.drop_eq_getElem_cons hi, hget]
    rfl
  have hdigits := ofBytes_drop_prefix_drop (Nat.le_of_lt hi)
  rw [hbytes, Hex.ofBytes_append, Hex.ofBytes_append, ← List.append_assoc] at hdigits
  exact (List.prefix_append _ _).trans hdigits

/-- Where the shape fits the digits of a byte, the byte is the opcode. -/
theorem getElem?_of_fits (hi : i < (bytes cs).length)
    (hfits : push4Shape.fits (cs.drop (2 * i)) = true) : (bytes cs)[i]? = some 0x63 := by
  have hdigits : Hex.ofBytes [(bytes cs)[i]] <+: cs.drop (2 * i) := by
    refine List.IsPrefix.trans ?_ (ofBytes_drop_prefix_drop (Nat.le_of_lt hi))
    rw [List.drop_eq_getElem_cons hi, Hex.ofBytes_prefix_iff]
    exact ⟨_, rfl⟩
  obtain ⟨rest, hrest⟩ := hdigits
  have hword : "63".toList <+: Hex.ofBytes [(bytes cs)[i]] := by
    rw [← hrest, push4Shape, Shape.fits_append rfl] at hfits
    simpa using Shape.fits_word.mp (Bool.and_eq_true_iff.mp hfits).1
  have hbyte : Hex.ofBytes [0x63] = Hex.ofBytes [(bytes cs)[i]] :=
    hword.eq_of_length (by rw [Hex.length_ofBytes]; rfl)
  rw [List.getElem?_eq_getElem hi, List.singleton_inj.mp (Hex.ofBytes_injective hbyte)]

/-! ### Places before an instruction -/

/-- A piece that reaches into an instruction from the left does not start with one. -/
theorem not_reached_of_covers {q : Nat} (hi : Reached (bytes cs) i) (hlen : i < (bytes cs).length)
    (htaken : push4Shape.Taken cs q) (hlt : q < 2 * i) (hcovers : 2 * i < q + 10) {k : Nat}
    (hk : q = 2 * k) : ¬ Reached (bytes cs) k := by
  intro hreached
  subst hk
  have hop : (bytes cs)[k]? = some 0x63 :=
    getElem?_of_fits (by omega) (Shape.taken_iff.mp htaken).1
  have hnext : k + 1 + Opcode.immediateSize 0x63 ≤ i := hreached.next_le hi (by omega) hop
  have hsize : Opcode.immediateSize 0x63 = 4 := rfl
  omega

/-- In a text of digits the scan finds what it takes. -/
theorem mem_selectors_of_taken {code : Option String} {s : SelectorDigits} {p : Nat}
    (hdigits : ∀ c ∈ text code, Hex.isLower c = true) (htaken : push4Shape.Taken (text code) p)
    (hs : "63".toList ++ s.chars <+: (text code).drop p) : s.selector ∈ selectors code := by
  have hpiece : ((text code).drop p).take push4Shape.length = "63".toList ++ s.chars := by
    have hlen : ("63".toList ++ s.chars).length = push4Shape.length := by
      rw [List.length_append, s.length_eq]
      rfl
    rw [← hlen]
    exact (List.prefix_iff_eq_take.mp hs).symm
  have hfound : "63".toList ++ s.chars ∈ push4Shape.found (text code) :=
    (Shape.mem_found_iff push4Shape_ne_nil).mpr ⟨p, htaken, hpiece.symm⟩
  have hscan : s.selector ∈ scanPush4 (text code) := by
    rw [scanPush4, scan, normalize_of_isLower hdigits, Sequence.mem_distinct, List.mem_map]
    exact ⟨_, hfound, Dispatcher.selectorOf_append _ s⟩
  have hne : (text code).isEmpty = false := by
    have hlt := htaken.lt_length push4Shape_ne_nil
    cases htext : text code with
    | nil => simp [htext] at hlt
    | cons c cs => rfl
  rw [selectors, hne]
  simp only [Bool.false_eq_true, if_false, Sequence.mem_distinct, List.mem_append]
  exact .inl (.inl hscan)

/-- **Which `PUSH4`s are found.**  In a code of digits, the constant of every `PUSH4` that the sweep
meets with all of its immediate is a selector, unless the scan has taken a piece that starts before
the instruction and reaches into it.  Such a piece starts with no instruction. -/
theorem selectors_push4 {code : Option String} {i : Nat}
    (hdigits : ∀ c ∈ text code, Hex.isLower c = true)
    (hname : IsNamed (bytes (text code)) "PUSH4" i) (hlen : i + 5 ≤ (bytes (text code)).length) :
    "0x" ++ String.ofList (Hex.ofBytes (((bytes (text code)).drop (i + 1)).take 4)) ∈
        selectors code ∨
      ∃ q, push4Shape.Taken (text code) q ∧ q < 2 * i ∧ 2 * i < q + 10 ∧
        ∀ k, q = 2 * k → ¬ Reached (bytes (text code)) k := by
  rw [← selector_immediate hlen]
  obtain ⟨hreached, op, hop, hpush4⟩ := hname
  obtain rfl : op = 0x63 := Opcode.name_injective (hpush4.trans name_push4.symm)
  have hpiece := drop_push4 hop hlen
  have hfits : push4Shape.fits ((text code).drop (2 * i)) = true := by
    obtain ⟨rest, hrest⟩ := hpiece
    rw [← hrest, ← List.append_nil push4Shape, Shape.fits_append
      (by rw [List.length_append, (immediate _ i hlen).length_eq]; rfl), Dispatcher.fits_push4]
    rfl
  rcases Shape.taken_or_covered hfits with htaken | ⟨q, hlt, htaken, hcovers⟩
  · exact .inl (mem_selectors_of_taken hdigits htaken hpiece)
  · rw [length_push4Shape] at hcovers
    exact .inr ⟨q, htaken, hlt, hcovers,
      fun k hk => not_reached_of_covers hreached (by omega) htaken hlt hcovers hk⟩

/-- Nothing reaches into the first instruction. -/
theorem selectors_push4_first :
    (∀ c ∈ text (some "0x63A9059CBB"), Hex.isLower c = true) ∧
    IsNamed (bytes (text (some "0x63A9059CBB"))) "PUSH4" 0 ∧
    0 + 5 ≤ (bytes (text (some "0x63A9059CBB"))).length ∧
    "0xa9059cbb" ∈ selectors (some "0x63A9059CBB") := by
  have hdigits : ∀ c ∈ text (some "0x63A9059CBB"), Hex.isLower c = true :=
    List.all_eq_true.mp (by decide +kernel)
  have hname : IsNamed (bytes (text (some "0x63A9059CBB"))) "PUSH4" 0 :=
    ⟨.refl, 0x63, by decide +kernel, name_push4⟩
  have hlen : 0 + 5 ≤ (bytes (text (some "0x63A9059CBB"))).length := by decide +kernel
  have hselector : "0x" ++ String.ofList (Hex.ofBytes
      (((bytes (text (some "0x63A9059CBB"))).drop (0 + 1)).take 4)) = "0xa9059cbb" := by
    decide +kernel
  refine ⟨hdigits, hname, hlen, ?_⟩
  rcases selectors_push4 hdigits hname hlen with h | ⟨q, -, hlt, -⟩
  · exact hselector ▸ h
  · exact absurd hlt (Nat.not_lt_zero q)

/-- The data `63` of a `PUSH1` before a `PUSH4`: the scan takes the text of both, and the constant
of the `PUSH4` is not found. -/
theorem selectors_push4_covered :
    (∀ c ∈ text (some "0x606363a9059cbb"), Hex.isLower c = true) ∧
    IsNamed (bytes (text (some "0x606363a9059cbb"))) "PUSH4" 2 ∧
    2 + 5 ≤ (bytes (text (some "0x606363a9059cbb"))).length ∧
    "0x" ++ String.ofList (Hex.ofBytes
      (((bytes (text (some "0x606363a9059cbb"))).drop (2 + 1)).take 4)) = "0xa9059cbb" ∧
    "0xa9059cbb" ∉ selectors (some "0x606363a9059cbb") := by
  have hstep : Follows (bytes (text (some "0x606363a9059cbb"))) 0 2 :=
    ⟨0x60, 1, by decide +kernel, Opcode.carries_iff.mpr (by decide), rfl⟩
  exact ⟨List.all_eq_true.mp (by decide +kernel),
    ⟨.single hstep, 0x63, by decide +kernel, name_push4⟩,
    by decide +kernel, by decide +kernel, by decide +kernel⟩

end ContractSurvey.Bytecode
