import ContractSurvey.Profile.Feature
import ContractSurvey.Proofs.Bytecode.Sweep

/-!
# Proofs — Profile — Gas

The habits that save gas are told by words in the text of a code, the instructions by a sweep over
its bytes.  The words miss nothing that the sweep meets.  Instructions without immediates that are
met one after the other stand side by side among the bytes (`infix_of_startsFrom`), and the digits
of bytes stand in the text (`occursIn_of_visits`).

The main statement is `gas_of_sweep`.  It does not go backwards: the words are also found in
immediates, across two bytes, and in text that is no code.
-/

namespace ContractSurvey

namespace Bytecode

/-! ### Instructions side by side -/

variable {ops bs : List UInt8}

theorem prefix_of_startsFrom (h : ops <+: startsFrom 0 bs)
    (hplain : ∀ op ∈ ops.dropLast, Opcode.immediateSize op = 0) : ops <+: bs := by
  induction ops generalizing bs with
  | nil => exact List.nil_prefix
  | cons op ops ih =>
      cases bs with
      | nil => exact h
      | cons b bs =>
          rw [startsFrom, List.cons_prefix_cons] at h
          obtain ⟨rfl, h⟩ := h
          refine List.cons_prefix_cons.mpr ⟨rfl, ?_⟩
          cases ops with
          | nil => exact List.nil_prefix
          | cons next ops =>
              -- only the last instruction may have an immediate behind it
              rw [List.dropLast_cons_cons, List.forall_mem_cons] at hplain
              rw [hplain.1] at h
              exact ih h hplain.2

/-- Instructions that the sweep meets in a row are bytes in a row. -/
theorem infix_of_startsFrom {skip : Nat} (h : ops <:+: startsFrom skip bs)
    (hplain : ∀ op ∈ ops.dropLast, Opcode.immediateSize op = 0) : ops <:+: bs := by
  fun_induction startsFrom skip bs with
  | case1 => exact h
  | case2 skip b rest ih => exact List.infix_cons (ih h)
  | case3 op rest ih =>
      rcases List.infix_cons_iff.mp h with hfirst | hrest
      · have hfront : ops <+: startsFrom 0 (op :: rest) := hfirst
        exact (prefix_of_startsFrom hfront hplain).isInfix
      · exact List.infix_cons (ih hrest)

theorem isInfix_of_isInfix_map {α β : Type} {f : α → β} (hf : Function.Injective f) {xs ys : List α}
    (h : xs.map f <:+: ys.map f) : xs <:+: ys := by
  obtain ⟨front, rear, h⟩ := h
  obtain ⟨ys', rear', rfl, h, -⟩ := List.map_eq_append_iff.mp h.symm
  obtain ⟨front', xs', rfl, -, h⟩ := List.map_eq_append_iff.mp h
  obtain rfl := List.map_injective_iff.mpr hf h
  exact ⟨front', rear', rfl⟩

theorem isInfix_ofBytes (h : ops <:+: bs) : Hex.ofBytes ops <:+: Hex.ofBytes bs := by
  obtain ⟨front, rear, rfl⟩ := h
  rw [Hex.ofBytes_append, Hex.ofBytes_append]
  exact List.infix_append _ _ _

/-! ### What the sweep finds -/

/-- The sweep counts the instruction. -/
def Counts (code : Option String) (name : String) : Prop :=
  0 < ((opcodeCounts code).get? name).getD 0

/-- The sweep meets the instructions one directly after the other. -/
def Visits (code : Option String) (names : List String) : Prop :=
  names <:+: (instructions code).map Opcode.name

variable {code : Option String}

theorem counts_iff_visits {name : String} : Counts code name ↔ Visits code [name] := by
  rw [Counts, Visits, opcodeCounts, getD_tally, List.count_pos_iff, List.singleton_infix_iff]

/-- The word is the digits of instructions of these names, only the last of which may have an
immediate. -/
def IsWordOf (names : List String) (word : String) : Prop :=
  ∃ ops : List UInt8, ops.map Opcode.name = names ∧
    (∀ op ∈ ops.dropLast, Opcode.immediateSize op = 0) ∧ Hex.ofBytes ops = word.toList

theorem isWordOf_of_all (ops : List UInt8) {names : List String} {word : String}
    (hnames : ops.map Opcode.name = names)
    (hplain : (ops.dropLast.all fun op => decide (Opcode.immediateSize op = 0)) = true)
    (hword : Hex.ofBytes ops = word.toList) : IsWordOf names word :=
  ⟨ops, hnames, fun op hop => of_decide_eq_true (List.all_eq_true.mp hplain op hop), hword⟩

/-- The word of instructions that the sweep meets in a row stands in the text. -/
theorem occursIn_of_visits {names : List String} {word : String} (hword : IsWordOf names word)
    (h : Visits code names) : Text.occursIn word.toList (text code) = true := by
  obtain ⟨ops, rfl, hplain, hdigits⟩ := hword
  have hbytes : ops <:+: bytes (text code) :=
    infix_of_startsFrom (isInfix_of_isInfix_map Opcode.name_injective h) hplain
  rw [Text.occursIn_iff, ← hdigits]
  exact (isInfix_ofBytes hbytes).trans (isFront_bytes (text code)).isPrefix.isInfix

theorem occursIn_of_counts {name word : String} (hword : IsWordOf [name] word)
    (h : Counts code name) : Text.occursIn word.toList (text code) = true :=
  occursIn_of_visits hword (counts_iff_visits.mp h)

end Bytecode

open Bytecode (Counts IsWordOf Visits isWordOf_of_all)

namespace Feature

/-! ### The words of the habits -/

theorem isWordOf_create2 : IsWordOf ["CREATE2"] "f5" :=
  isWordOf_of_all [0xf5] (by decide) (by decide) (by decide)

theorem isWordOf_push1 : IsWordOf ["PUSH1"] "60" :=
  isWordOf_of_all [0x60] (by decide) (by decide) (by decide)

theorem isWordOf_mstore : IsWordOf ["MSTORE"] "52" :=
  isWordOf_of_all [0x52] (by decide) (by decide) (by decide)

theorem isWordOf_staticcall : IsWordOf ["GAS", "STATICCALL"] "5afa" :=
  isWordOf_of_all [0x5a, 0xfa] (by decide) (by decide) (by decide)

theorem isWordOf_returndatasize : IsWordOf (List.replicate 4 "RETURNDATASIZE") "3d3d3d3d" :=
  isWordOf_of_all (List.replicate 4 0x3d) (by decide) (by decide) (by decide)

/-- What is reported of the text alone. -/
theorem mem_gas_iff (patterns : List Pattern) (code : Option String) :
    ("Assembly Optimizations" ∈ gas patterns code ↔
      Text.occursIn "3d3d3d3d".toList (Bytecode.text code) = true ∨
        Text.occursIn "5afa".toList (Bytecode.text code) = true) ∧
    ("Packed Storage" ∈ gas patterns code ↔
      Text.occursIn "60".toList (Bytecode.text code) = true ∧
        Text.occursIn "52".toList (Bytecode.text code) = true) ∧
    ("CREATE2 Deployment" ∈ gas patterns code ↔
      Text.occursIn "f5".toList (Bytecode.text code) = true) := by
  refine ⟨?_, ?_, ?_⟩ <;> simp [gas]

/-- **No habit is missed that the instructions show.**  Whatever the code and the functions
recognised in it: a `CREATE2` that the sweep counts is reported, so are a `PUSH1` and an `MSTORE`
together, and so are a `GAS` with a `STATICCALL` directly behind it and four `RETURNDATASIZE` in a
row. -/
theorem gas_of_sweep (patterns : List Pattern) (code : Option String) :
    (Counts code "CREATE2" → "CREATE2 Deployment" ∈ gas patterns code) ∧
    (Counts code "PUSH1" ∧ Counts code "MSTORE" → "Packed Storage" ∈ gas patterns code) ∧
    (Visits code ["GAS", "STATICCALL"] ∨ Visits code (List.replicate 4 "RETURNDATASIZE") →
      "Assembly Optimizations" ∈ gas patterns code) := by
  obtain ⟨hassembly, hpacked, hcreate⟩ := mem_gas_iff patterns code
  refine ⟨fun h => ?_, fun ⟨hpush, hstore⟩ => ?_, fun h => ?_⟩
  · exact hcreate.mpr (Bytecode.occursIn_of_counts isWordOf_create2 h)
  · exact hpacked.mpr ⟨Bytecode.occursIn_of_counts isWordOf_push1 hpush,
      Bytecode.occursIn_of_counts isWordOf_mstore hstore⟩
  · rcases h with hcall | hsizes
    · exact hassembly.mpr (.inr (Bytecode.occursIn_of_visits isWordOf_staticcall hcall))
    · exact hassembly.mpr (.inl (Bytecode.occursIn_of_visits isWordOf_returndatasize hsizes))

/-- Behind a push with its immediate come a creation, a store and a call, and a digit that is half
a byte. -/
theorem gas_of_sweep_push :
    let code := some "0x60F5f5525afa5"
    Counts code "CREATE2" ∧ Counts code "PUSH1" ∧ Counts code "MSTORE" ∧
      Visits code ["GAS", "STATICCALL"] ∧ "CREATE2 Deployment" ∈ gas [] code ∧
      "Packed Storage" ∈ gas [] code ∧ "Assembly Optimizations" ∈ gas [] code := by
  intro code
  have hsweep : Bytecode.instructions code = [0x60, 0xf5, 0x52, 0x5a, 0xfa] := by decide +kernel
  have hpush : Counts code "PUSH1" := by
    rw [Bytecode.counts_iff_visits, Visits, hsweep]
    exact ⟨[], ["CREATE2", "MSTORE", "GAS", "STATICCALL"], by decide⟩
  have hcreate : Counts code "CREATE2" := by
    rw [Bytecode.counts_iff_visits, Visits, hsweep]
    exact ⟨["PUSH1"], ["MSTORE", "GAS", "STATICCALL"], by decide⟩
  have hstore : Counts code "MSTORE" := by
    rw [Bytecode.counts_iff_visits, Visits, hsweep]
    exact ⟨["PUSH1", "CREATE2"], ["GAS", "STATICCALL"], by decide⟩
  have hcall : Visits code ["GAS", "STATICCALL"] := by
    rw [Visits, hsweep]
    exact ⟨["PUSH1", "CREATE2", "MSTORE"], [], by decide⟩
  obtain ⟨hcreation, hpacked, hassembly⟩ := gas_of_sweep [] code
  exact ⟨hcreate, hpush, hstore, hcall, hcreation hcreate, hpacked ⟨hpush, hstore⟩,
    hassembly (.inl hcall)⟩

end Feature

end ContractSurvey
