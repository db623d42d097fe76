import ContractSurvey.Proofs.DisjointSet.Rows

/-!
# Proofs — DisjointSet — Signed

What a forest makes of indexes that may be below zero or outside.  `refused_iff` says which calls
are refused, and `union_of_refused` that a refused union has at most looked up its first element,
which leaves ranks and sets (`rank_find`, `together_find`).  With the operations on rows of signed
numbers beside it, `TakesSigned` collects this for one forest, and `run_takesSigned` has it after
any calls.
-/

namespace ContractSurvey.DisjointSet

open Sequence (slot)

/-! ### Refused calls -/

namespace Call

/-- Every index of the call lies among `n` elements, counted from either end. -/
def Names (n : Nat) : Call → Prop
  | .find i => -n ≤ i ∧ i < n
  | .union a b => (-n ≤ a ∧ a < n) ∧ -n ≤ b ∧ b < n

/-- The call ends with a fault. -/
def Refused (d : DisjointSet) : Call → Prop
  | .find i => ∃ e, (d.find i).1 = .error e
  | .union a b => ∃ e, (d.union a b).1 = .error e

end Call

theorem refused_find_iff {d : DisjointSet} {i : Int} :
    (Call.find i).Refused d ↔ ∃ e, slot d.size i = .error e := by
  cases h : slot d.size i with
  | error e => simp [Call.Refused, find_of_fault h]
  | ok k => simp [Call.Refused, find_of_slot h]

theorem refused_union_iff {d : DisjointSet} (hd : d.WellFormed) {a b : Int} :
    (Call.union a b).Refused d ↔
      (∃ e, slot d.size a = .error e) ∨ ∃ e, slot d.size b = .error e := by
  cases ha : slot d.size a with
  | error e => simp [Call.Refused, union_of_fault_left ha]
  | ok i =>
      cases hb : slot d.size b with
      | error e => simp [Call.Refused, union_of_fault_right ha hb]
      | ok j =>
          rw [Call.Refused, union_of_slot ha hb,
            union_natCast hd (Sequence.slot_lt ha) (Sequence.slot_lt hb)]
          by_cases e : d.root i = d.root j <;> simp [e]

/-- A call is refused exactly if one of its indexes lies outside. -/
theorem refused_iff {d : DisjointSet} (hd : d.WellFormed) (c : Call) :
    c.Refused d ↔ ¬ c.Names d.size := by
  cases c with
  | find i => rw [refused_find_iff, Sequence.slot_eq_error_iff, Call.Names]
  | union a b =>
      rw [refused_union_iff hd, Sequence.slot_eq_error_iff, Sequence.slot_eq_error_iff, Call.Names]
      exact not_and_or.symm

/-- A refused union has done what its first look-up does, and nothing after it. -/
theorem union_of_refused {d : DisjointSet} (hd : d.WellFormed) {a b : Int}
    (h : (Call.union a b).Refused d) : (d.union a b).2 = (d.find a).2 := by
  cases ha : slot d.size a with
  | error e => rw [union_of_fault_left ha, find_of_fault ha]
  | ok i =>
      have hb : ∃ e, slot d.size b = .error e := by
        simpa [ha] using (refused_union_iff hd).mp h
      obtain ⟨e, hb⟩ := hb
      rw [union_of_fault_right ha hb, find_of_slot ha]

theorem after_of_refused {d : DisjointSet} (hd : d.WellFormed) {c : Call} (h : c.Refused d) :
    ∃ index, c.after d = (d.find index).2 := by
  cases c with
  | find i => exact ⟨i, rfl⟩
  | union a b => exact ⟨a, union_of_refused hd h⟩

theorem rank_find (d : DisjointSet) (index : Int) : (d.find index).2.rank = d.rank := by
  cases h : slot d.size index with
  | error e => rw [find_of_fault h]
  | ok k => rw [find_of_slot h, compressed]

/-- A look-up by any index leaves together what was together. -/
theorem together_find {d : DisjointSet} (hd : d.WellFormed) (index : Int) {i j : Nat}
    (hi : i < d.size) (hj : j < d.size) :
    (d.find index).2.Together i j ↔ d.Together i j := by
  cases h : slot d.size index with
  | error e => rw [find_of_fault h]
  | ok k =>
      have hk := Sequence.slot_lt h
      rw [find_of_slot h, together_natCast (wellFormed_compressed hd hk) (by rwa [size_compressed])
        (by rwa [size_compressed]), together_natCast hd hi hj, root_compressed hd hk hi,
        root_compressed hd hk hj]

/-! ### Signed indexes -/

/-- What a forest of `n` elements makes of calls with any indexes. -/
structure TakesSigned (n : Nat) (d : DisjointSet) : Prop where
  /-- The operations do what the same operations do on rows of signed numbers, which end. -/
  find_rows (i : Int) : Rows.outcome (Rows.find i) d.rows =
    .some ((d.find i).1.map fun r : Nat => (r : Int), (d.find i).2.rows)
  union_rows (a b : Int) : Rows.outcome (Rows.union a b) d.rows =
    .some ((d.union a b).1, (d.union a b).2.rows)
  /-- The numbers in the rows, and those given back, are elements. -/
  stored {p : Int} : p ∈ d.rows.parent → 0 ≤ p ∧ p < n
  returned {i r : Int} {d' : Rows} :
    Rows.outcome (Rows.find i) d.rows = .some (.ok r, d') → 0 ≤ r ∧ r < n
  refused_iff (c : Call) : c.Refused d ↔ ¬ c.Names n
  /-- An index below zero is as good as the place it stands for. -/
  find_negative {i : Int} : -n ≤ i → i < 0 → d.find i = d.find (i + n)
  union_negative_left {i : Int} (k : Int) : -n ≤ i → i < 0 → d.union i k = d.union (i + n) k
  union_negative_right {i : Int} (k : Int) : -n ≤ i → i < 0 → d.union k i = d.union k (i + n)
  /-- A refused union is left where its first look-up ended. -/
  union_refused {a b : Int} : (Call.union a b).Refused d → (d.union a b).2 = (d.find a).2
  rank_refused {c : Call} : c.Refused d → (c.after d).rank = d.rank
  together_refused {c : Call} {i j : Nat} : c.Refused d → i < n → j < n →
    ((c.after d).Together i j ↔ d.Together i j)

theorem takesSigned {d : DisjointSet} (hd : d.WellFormed) : TakesSigned d.size d where
  find_rows := Rows.outcome_find hd
  union_rows := Rows.outcome_union hd
  stored := mem_rows_parent hd
  returned := Rows.find_lt hd
  refused_iff := DisjointSet.refused_iff hd
  find_negative h h0 := find_congr (Sequence.slot_add_length h h0).symm
  union_negative_left _ h h0 := union_congr (Sequence.slot_add_length h h0).symm rfl
  union_negative_right _ h h0 := union_congr rfl (Sequence.slot_add_length h h0).symm
  union_refused := union_of_refused hd
  rank_refused h := by
    obtain ⟨index, e⟩ := after_of_refused hd h
    rw [e, rank_find]
  together_refused h hi hj := by
    obtain ⟨index, e⟩ := after_of_refused hd h
    rw [e, together_find hd index hi hj]

/-- **Signed indexes**, after any calls with any indexes, refused ones among them.  The calls end on
rows of signed numbers, which are the forest's at all times; a call is refused exactly if an index
lies outside; one below zero does and gives what the place it stands for does; and a refused call
leaves all ranks and sets. -/
theorem run_takesSigned (n : Nat) (calls : List Call) :
    Rows.run n calls = .some (run n calls).rows ∧ TakesSigned n (run n calls) := by
  have h := takesSigned (wellFormed_run n calls)
  rw [size_run] at h
  exact ⟨Rows.run_rows n calls, h⟩

/-- A refused union may leave other parents. -/
example :
    run 4 [.union 0 1, .union 2 3, .union 0 2] = ⟨[0, 0, 0, 2], [2, 0, 1, 0]⟩ ∧
      (run 4 [.union 0 1, .union 2 3, .union 0 2]).union (-1) 4 =
        (.error .outOfRange, ⟨[0, 0, 0, 0], [2, 0, 1, 0]⟩) := by
  decide

end ContractSurvey.DisjointSet
