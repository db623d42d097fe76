import ContractSurvey.Bytecode.Sweep
import ContractSurvey.Proofs.Bytecode.Bytes
import ContractSurvey.Proofs.Bytecode.Opcode
import ContractSurvey.Proofs.Sequence.Tally
import Mathlib.Data.List.GetD
import Mathlib.Data.Set.Card
import Mathlib.Logic.Relation

/-!
# Proofs — Bytecode — Sweep

The instructions of a code by their places.  An instruction starts at the first byte, and the next
one where the immediate of the last one ends (`Follows`, `Reached`); a push whose immediate is cut
off at the end is an instruction like any other.  The sweep of the code meets the opcodes at these
places, one after the other (`startsFrom_eq_map`), and never two places out of order
(`pairwise_placesFrom`).

* `tallied_instructions`: the counts are those of the instructions, under a name for each opcode.
* `startsFrom_append`: behind bytes that the sweep goes through to their end, it starts anew.
* `opcodeCounts_sweep`: both together, with the bytes told by the text of the code.
-/

namespace ContractSurvey

namespace Bytecode

variable {bs : List UInt8} {i j : Nat}

/-! ### Places -/

/-- Behind the instruction at `i` and its immediate, the next one would start at `j`. -/
def Follows (bs : List UInt8) (i j : Nat) : Prop :=
  ∃ op n, bs[i]? = some op ∧ Opcode.Carries op n ∧ j = i + 1 + n

/-- A place that is come to from the first byte, instruction by instruction. -/
def Reached (bs : List UInt8) : Nat → Prop := Relation.ReflTransGen (Follows bs) 0

theorem follows_getElem (h : i < bs.length) :
    Follows bs i (i + 1 + Opcode.immediateSize bs[i]) :=
  ⟨bs[i], _, List.getElem?_eq_getElem h, Opcode.carries_iff.mpr rfl, rfl⟩

theorem Follows.lt (h : Follows bs i j) : i < j := by
  obtain ⟨op, n, -, -, rfl⟩ := h
  omega

theorem Follows.lt_length (h : Follows bs i j) : i < bs.length := by
  obtain ⟨op, n, hop, -⟩ := h
  exact (List.getElem?_eq_some_iff.mp hop).1

theorem Follows.eq {op : UInt8} (h : Follows bs i j) (hop : bs[i]? = some op) :
    j = i + 1 + Opcode.immediateSize op := by
  obtain ⟨op', n, hop', hn, rfl⟩ := h
  obtain rfl : op = op' := Option.some.inj (hop.symm.trans hop')
  rw [Opcode.carries_iff.mp hn]

/-- Only one place follows. -/
theorem follows_rightUnique : Relator.RightUnique (Follows bs) := by
  intro i j k hj hk
  obtain ⟨op, n, hop, -⟩ := id hj
  rw [hj.eq hop, hk.eq hop]

theorem le_of_reflTransGen (h : Relation.ReflTransGen (Follows bs) i j) : i ≤ j := by
  induction h with
  | refl => exact Nat.le_refl _
  | tail _ hstep ih => exact ih.trans (Nat.le_of_lt hstep.lt)

/-- No place is reached within an instruction that is reached. -/
theorem Reached.next_le {op : UInt8} (hi : Reached bs i) (hj : Reached bs j) (hlt : i < j)
    (hop : bs[i]? = some op) : i + 1 + Opcode.immediateSize op ≤ j := by
  have hij : Relation.ReflTransGen (Follows bs) i j := by
    rcases Relation.ReflTransGen.total_of_right_unique follows_rightUnique hi hj with h | h
    · exact h
    · exact absurd (le_of_reflTransGen h) (Nat.not_le.mpr hlt)
  rcases hij.cases_head with rfl | ⟨k, hk, hrest⟩
  · exact absurd hlt (Nat.lt_irrefl i)
  · rw [← hk.eq hop]
    exact le_of_reflTransGen hrest

/-- The places of the instructions from one place on. -/
def placesFrom (bs : List UInt8) (i : Nat) : List Nat :=
  if _h : i < bs.length then i :: placesFrom bs (i + 1 + Opcode.immediateSize bs[i]) else []
termination_by bs.length - i

theorem mem_placesFrom : j ∈ placesFrom bs i ↔
    Relation.ReflTransGen (Follows bs) i j ∧ j < bs.length := by
  fun_induction placesFrom bs i with
  | case1 i h ih =>
      rw [List.mem_cons, ih]
      constructor
      · rintro (rfl | ⟨hrest, hj⟩)
        · exact ⟨.refl, h⟩
        · exact ⟨.head (follows_getElem h) hrest, hj⟩
      · rintro ⟨hreached, hj⟩
        rcases hreached.cases_head with rfl | ⟨k, hk, hrest⟩
        · exact .inl rfl
        · exact .inr ⟨follows_rightUnique hk (follows_getElem h) ▸ hrest, hj⟩
  | case2 i h =>
      simp only [List.not_mem_nil, false_iff, not_and, Nat.not_lt]
      exact fun hrest => (Nat.not_lt.mp h).trans (le_of_reflTransGen hrest)

theorem pairwise_placesFrom (bs : List UInt8) (i : Nat) : (placesFrom bs i).Pairwise (· < ·) := by
  fun_induction placesFrom bs i with
  | case1 i h ih =>
      refine List.pairwise_cons.mpr ⟨fun j hj => ?_, ih⟩
      have hle := le_of_reflTransGen (mem_placesFrom.mp hj).1
      omega
  | case2 => exact .nil

theorem startsFrom_drop (skip : Nat) (bs : List UInt8) :
    startsFrom 0 (bs.drop skip) = startsFrom skip bs := by
  -- both pass over the bytes that belong to an instruction, one at once and one byte by byte
  induction skip generalizing bs with
  | zero => rw [List.drop_zero]
  | succ skip ih =>
      cases bs with
      | nil => rfl
      | cons b bs => rw [List.drop_succ_cons, ih, startsFrom]

/-- The sweep goes on where the next instruction starts. -/
theorem startsFrom_getElem (h : i < bs.length) : startsFrom 0 (bs.drop i) =
    bs[i] :: startsFrom 0 (bs.drop (i + 1 + Opcode.immediateSize bs[i])) := by
  rw [List.drop_eq_getElem_cons h, startsFrom, ← startsFrom_drop, List.drop_drop]

/-- The sweep meets the opcodes at the places of the instructions, in order. -/
theorem startsFrom_eq_map (bs : List UInt8) (i : Nat) :
    startsFrom 0 (bs.drop i) = (placesFrom bs i).map fun j => bs.getD j 0 := by
  fun_induction placesFrom bs i with
  | case1 i h ih =>
      rw [startsFrom_getElem h, ih, List.map_cons, List.getD_eq_getElem bs 0 h]
  | case2 i h =>
      rw [List.drop_eq_nil_of_le (Nat.not_lt.mp h)]
      rfl

/-! ### Counts -/

/-- The instructions whose opcode has the name. -/
def IsNamed (bs : List UInt8) (m : String) (i : Nat) : Prop :=
  Reached bs i ∧ ∃ op, bs[i]? = some op ∧ Opcode.name op = m

/-- What it is to count the instructions of some bytes by name. -/
structure Tallied (bs : List UInt8) (counts : Ledger String Nat) : Prop where
  count (op : UInt8) :
    (counts.get? (Opcode.name op)).getD 0 = {i | Reached bs i ∧ bs[i]? = some op}.ncard
  total : (counts.map Prod.snd).sum = {i | Reached bs i ∧ i < bs.length}.ncard
  /-- A name is listed if some instruction has it. -/
  mem_keys (m : String) : m ∈ counts.keys ↔ ∃ i, IsNamed bs m i
  /-- The first instruction under a name comes before all those of a name that is listed later. -/
  order : counts.keys.Pairwise fun m n => ∃ i, IsNamed bs m i ∧ ∀ j, IsNamed bs n j → i < j

theorem ncard_mem {p : Nat → Prop} [DecidablePred p] {is : List Nat} (h : is.Nodup) :
    {i | i ∈ is ∧ p i}.ncard = is.countP p := by
  have hset : {i | i ∈ is ∧ p i} = ((is.filter p).toFinset : Set Nat) := by
    ext i
    simp
  rw [hset, Set.ncard_coe_finset, List.toFinset_card_of_nodup (h.filter _),
    List.countP_eq_length_filter]

theorem isNamed_iff {m : String} : IsNamed bs m i ↔
    i ∈ placesFrom bs 0 ∧ Opcode.name (bs.getD i 0) = m := by
  rw [mem_placesFrom, IsNamed, Reached, and_assoc]
  refine and_congr_right fun _ => ⟨?_, ?_⟩
  · rintro ⟨op, hop, rfl⟩
    exact ⟨(List.getElem?_eq_some_iff.mp hop).1, by rw [List.getD_eq_getElem?_getD, hop]; rfl⟩
  · rintro ⟨hlt, hname⟩
    exact ⟨_, List.getElem?_eq_getElem hlt, by rwa [List.getD_eq_getElem bs 0 hlt] at hname⟩

theorem tallied_instructions (bs : List UInt8) :
    Tallied bs (tally ((startsFrom 0 bs).map Opcode.name)) := by
  have hstarts : startsFrom 0 bs = (placesFrom bs 0).map fun j => bs.getD j 0 :=
    startsFrom_eq_map bs 0
  have hnames : (startsFrom 0 bs).map Opcode.name =
      (placesFrom bs 0).map fun j => Opcode.name (bs.getD j 0) := by
    rw [hstarts, List.map_map]
    rfl
  have hnodup : (placesFrom bs 0).Nodup := (pairwise_placesFrom bs 0).imp Nat.ne_of_lt
  exact {
    count := fun op => by
      have hset : {i | Reached bs i ∧ bs[i]? = some op} =
          {i | i ∈ placesFrom bs 0 ∧ Opcode.name (bs.getD i 0) = Opcode.name op} := by
        refine Set.ext fun i => Iff.trans ?_ isNamed_iff
        simp [IsNamed, Opcode.name_injective.eq_iff]
      rw [getD_tally, hset, ncard_mem hnodup, hnames, List.count, List.countP_map]
      rfl
    total := by
      have hset : {i | Reached bs i ∧ i < bs.length} = {i | i ∈ placesFrom bs 0 ∧ True} := by
        exact Set.ext fun i => by simp [mem_placesFrom, Reached]
      rw [sum_tally, hset, ncard_mem hnodup, hnames, List.length_map]
      simp
    mem_keys := fun m => by
      rw [keys_tally, Sequence.mem_distinct, hnames, List.mem_map]
      simp only [isNamed_iff]
    order := by
      rw [keys_tally, hnames]
      refine (Sequence.pairwise_distinct_map (pairwise_placesFrom bs 0) _).imp ?_
      rintro m n ⟨i, hi, hm, hbefore⟩
      exact ⟨i, isNamed_iff.mpr ⟨hi, hm⟩, fun j hj =>
        hbefore j (isNamed_iff.mp hj).1 (isNamed_iff.mp hj).2⟩ }

/-! ### Bytes behind bytes -/

theorem startsFrom_drop_append {as : List UInt8}
    (h : Relation.ReflTransGen (Follows as) i as.length) (bs : List UInt8) :
    startsFrom 0 (as.drop i ++ bs) = startsFrom 0 (as.drop i) ++ startsFrom 0 bs := by
  -- from the end back to the front, instruction by instruction
  induction h using Relation.ReflTransGen.head_induction_on with
  | refl =>
      rw [List.drop_length]
      rfl
  | @head i k hstep hrest ih =>
      have hi := hstep.lt_length
      have hk : k ≤ as.length := le_of_reflTransGen hrest
      obtain rfl : k = i + 1 + Opcode.immediateSize as[i] :=
        follows_rightUnique hstep (follows_getElem hi)
      have hdrop : (as.drop (i + 1) ++ bs).drop (Opcode.immediateSize as[i]) =
          as.drop (i + 1 + Opcode.immediateSize as[i]) ++ bs := by
        rw [List.drop_append_of_le_length (by rw [List.length_drop]; omega), List.drop_drop]
      rw [startsFrom_getElem hi, List.cons_append, ← ih, List.drop_eq_getElem_cons hi,
        List.cons_append, startsFrom, ← startsFrom_drop, hdrop]

/-- Behind bytes that the sweep goes through to their end, it starts anew. -/
theorem startsFrom_append {as : List UInt8} (h : Reached as as.length) (bs : List UInt8) :
    startsFrom 0 (as ++ bs) = startsFrom 0 as ++ startsFrom 0 bs := by
  simpa using startsFrom_drop_append h bs

/-- **The sweep of a code.**  It goes through the bytes of the longest front part of the text that
consists of whole bytes, counts the instructions that start at the places reached, and keeps the
names of different opcodes apart.  Behind a code of whole bytes whose last instruction ends with it,
another code is counted as by itself. -/
theorem opcodeCounts_sweep (code : Option String) :
    IsFront (text code) (bytes (text code)) ∧
    Tallied (bytes (text code)) (opcodeCounts code) ∧
    Function.Injective Opcode.name ∧
    ∀ (front rear : Option String) (as : List UInt8), text front = Hex.ofBytes as →
      Reached as as.length → text code = text front ++ text rear → ∀ m,
        ((opcodeCounts code).get? m).getD 0 =
          ((opcodeCounts front).get? m).getD 0 + ((opcodeCounts rear).get? m).getD 0 := by
  refine ⟨isFront_bytes _, tallied_instructions _, Opcode.name_injective, ?_⟩
  intro front rear as hfront hend htext m
  have hbytes : bytes (text front) = as := by
    rw [hfront, ← List.append_nil (Hex.ofBytes as), bytes_append]
    exact List.append_nil as
  have hwhole : instructions code = instructions front ++ instructions rear := by
    rw [instructions, instructions, instructions, hbytes, htext, hfront, bytes_append,
      startsFrom_append hend]
  rw [opcodeCounts, opcodeCounts, opcodeCounts, getD_tally, getD_tally, getD_tally, hwhole,
    List.map_append, List.count_append]

/-- A push of one byte before a push that lacks its second byte. -/
theorem opcodeCounts_sweep_cutOff :
    text (some "0x6001") = Hex.ofBytes [0x60, 0x01] ∧ Reached [0x60, 0x01] 2 ∧
    text (some "0x60015B6101") = text (some "0x6001") ++ text (some "5B6101") ∧
    ((opcodeCounts (some "0x60015B6101")).get? "PUSH2").getD 0 =
      ((opcodeCounts (some "0x6001")).get? "PUSH2").getD 0 +
        ((opcodeCounts (some "5B6101")).get? "PUSH2").getD 0 := by
  have hfront : text (some "0x6001") = Hex.ofBytes [0x60, 0x01] := by decide +kernel
  have hend : Reached [0x60, 0x01] 2 :=
    .single ⟨0x60, 1, rfl, Opcode.carries_iff.mpr (by decide), rfl⟩
  have htext : text (some "0x60015B6101") = text (some "0x6001") ++ text (some "5B6101") := by
    decide +kernel
  exact ⟨hfront, hend, htext, (opcodeCounts_sweep _).2.2.2 _ _ _ hfront hend htext "PUSH2"⟩

end Bytecode

end ContractSurvey
