import ContractSurvey.Bytecode.Opcode
import Mathlib.Data.List.Nodup

/-!
# Proofs — Bytecode — Opcode

Names and immediates of instructions.  Different opcodes have different names (`name_injective`),
and the name says how many bytes belong to the instruction: those of an immediate are counted in
the names of the pushes, and no other instruction has one (`carries_iff`).
-/

namespace ContractSurvey.Opcode

/-! ### Names -/

/-- Whether the numbers differ from each other and from those that are bits of `seen`. -/
def apart (seen : Nat) : List Nat → Bool
  | [] => true
  | n :: ns => !seen.testBit n && apart (seen ||| Nat.pow 2 n) ns

theorem nodup_of_apart {seen : Nat} {ns : List Nat} (h : apart seen ns = true) :
    (∀ n ∈ ns, seen.testBit n = false) ∧ ns.Nodup := by
  induction ns generalizing seen with
  | nil => simp
  | cons n ns ih =>
      rw [apart, Bool.and_eq_true, Bool.not_eq_true'] at h
      obtain ⟨hrest, hnodup⟩ := ih h.2
      have hone : ∀ m ∈ ns, seen.testBit m = false ∧ n ≠ m := by
        intro m hm
        have hboth := hrest m hm
        have hpow : (Nat.pow 2 n).testBit m = decide (n = m) := Nat.testBit_two_pow
        rw [Nat.testBit_or, hpow, Bool.or_eq_false_iff, decide_eq_false_iff_not] at hboth
        exact hboth
      refine ⟨List.forall_mem_cons.mpr ⟨h.1, fun m hm => (hone m hm).1⟩, ?_⟩
      exact List.nodup_cons.mpr ⟨fun hn => (hone n hn).2 rfl, hnodup⟩

/-- A number for a name.  The modulus is one for which no two names of opcodes meet. -/
def nameCode (s : String) : Nat :=
  s.toByteArray.data.toList.foldl (fun n b => 64 * n + b.toNat) 0 % 2817

theorem apart_nameCodes :
    apart 0 ((List.range 256).map fun n => nameCode (name (UInt8.ofNat n))) = true := by
  decide +kernel

/-- No two opcodes share a name. -/
theorem name_injective : Function.Injective name := by
  intro a b h
  have hcodes : nameCode (name (UInt8.ofNat a.toNat)) = nameCode (name (UInt8.ofNat b.toNat)) := by
    rw [UInt8.ofNat_toNat, UInt8.ofNat_toNat, h]
  have hnumbers : a.toNat = b.toNat := List.inj_on_of_nodup_map (nodup_of_apart apart_nameCodes).2
    (List.mem_range.mpr a.toNat_lt) (List.mem_range.mpr b.toNat_lt) hcodes
  exact UInt8.toNat_inj.mp hnumbers

/-! ### Immediates -/

/-- The first two bytes of a name. -/
def opening (s : String) : List UInt8 := s.toByteArray.data.toList.take 2

theorem opening_append {s : String} (h : 2 ≤ s.toByteArray.data.toList.length) (t : String) :
    opening (s ++ t) = opening s := by
  rw [opening, String.toByteArray_append, ByteArray.data_append, Array.toList_append,
    List.take_append_of_le_length h, opening]

/-- Besides `PUSH0` no name of the table opens like that of a push. -/
theorem opening_named : ∀ p ∈ named, p = (0x5f, "PUSH0") ∨ opening p.2 ≠ opening "PUSH" := by
  decide

theorem toString_inj {k n : Nat} : toString k = toString n ↔ k = n := by
  refine ⟨fun h => ?_, congrArg toString⟩
  have hdigits : (toString k).toList = (toString n).toList := congrArg String.toList h
  rw [← Nat.ofDigitChars_ten_toDigits (n := k), ← Nat.ofDigitChars_ten_toDigits (n := n)]
  simpa [toString, Nat.repr] using congrArg (Nat.ofDigitChars 10 · 0) hdigits

/-- The pushes are named for the number of their opcode. -/
theorem name_eq_push_iff {op : UInt8} {n : Nat} :
    name op = "PUSH" ++ toString n ↔ op.toNat = 0x5f + n ∧ n ≤ 32 := by
  have hpush (k : Nat) : "PUSH" ++ toString k = "PUSH" ++ toString n ↔ k = n := by
    rw [String.append_right_inj, toString_inj]
  have hother {s : String} (h : opening s ≠ opening "PUSH") : s ≠ "PUSH" ++ toString n := by
    rintro rfl
    exact h (opening_append (by decide) _)
  have hfamily {s : String} (hlen : 2 ≤ s.toByteArray.data.toList.length)
      (h : opening s ≠ opening "PUSH") (t : String) : s ++ t ≠ "PUSH" ++ toString n :=
    hother (by rwa [opening_append hlen])
  rw [name]
  split
  · rw [hpush]
    omega
  · split
    · exact iff_of_false (hfamily (by decide) (by decide) _) (by omega)
    · split
      · exact iff_of_false (hfamily (by decide) (by decide) _) (by omega)
      · split
        · exact iff_of_false (hfamily (by decide) (by decide) _) (by omega)
        · have hzero (h : op.toNat = 0x5f) : named.lookup op.toNat = some "PUSH0" := by
            rw [h]
            decide
          cases hlookup : named.lookup op.toNat with
          | none =>
            have hnumber : op.toNat ≠ 0x5f := fun h => by simp [hzero h] at hlookup
            exact iff_of_false (hfamily (by decide) (by decide) _) (by omega)
          | some s =>
            obtain ⟨l, r, hnamed, hfirst⟩ := List.lookup_eq_some_iff.mp hlookup
            rcases opening_named (op.toNat, s) (by simp [hnamed]) with h | h
            · obtain ⟨hnumber, rfl⟩ := Prod.mk.inj h
              exact (hpush 0).trans (by omega)
            · have hnumber : op.toNat ≠ 0x5f := by
                intro hnumber
                obtain rfl : "PUSH0" = s := Option.some.inj ((hzero hnumber).symm.trans hlookup)
                exact h (show opening "PUSH0" = opening "PUSH" by decide)
              exact iff_of_false (hother h) (by omega)

/-- The instruction has an immediate of `n` bytes: a push has the one it is named for, and every
other instruction has none. -/
def Carries (op : UInt8) (n : Nat) : Prop :=
  name op = "PUSH" ++ toString n ∨ n = 0 ∧ ∀ k : Nat, name op ≠ "PUSH" ++ toString k

theorem carries_iff {op : UInt8} {n : Nat} : Carries op n ↔ immediateSize op = n := by
  simp only [Carries, ne_eq, name_eq_push_iff, immediateSize]
  constructor
  · rintro (⟨hop, hn⟩ | ⟨rfl, hnone⟩)
    · split <;> omega
    · have := hnone (op.toNat - 0x5f)
      split <;> omega
  · split
    · intro h
      exact .inl (by omega)
    · rintro rfl
      by_cases hop : op.toNat = 0x5f
      · exact .inl ⟨hop, Nat.zero_le _⟩
      · exact .inr ⟨rfl, fun k => by omega⟩

end ContractSurvey.Opcode
