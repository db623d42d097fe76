import ContractSurvey.Proofs.DisjointSet.Steps
import Mathlib.Data.PFun

/-!
# Proofs — DisjointSet — Rows

`Rows` has the two operations once more, as they go from one entry to the next: all numbers are
signed, a walk starts from the index as it is given, every reading and writing may meet an index
that names no entry, and a walk is a loop that may never end.  An index below zero is nothing's
parent, so that a walk from there does not take it for a root: it goes one step further.  On the
rows of a well-formed forest the operations end as those of the forest do:

* `Rows.outcome_climb`, `Rows.outcome_repoint`: the two walks, from any index of an element.
* `Rows.outcome_find`, `Rows.outcome_union`: the operations, with any indexes.
* `Rows.run_rows`: all calls, one after the other; a refused one leaves the rows it met.
-/

namespace ContractSurvey.DisjointSet

open Sequence (IndexFault slot)

/-! ### Rows of signed numbers -/

/-- The entry that a signed index names. -/
def read {α : Type} (xs : List α) (index : Int) : Except IndexFault α := do
  let i ← slot xs.length index
  match xs[i]? with
  | some x => return x
  | none => throw .outOfRange

/-- The row with another entry at a signed index. -/
def write {α : Type} (xs : List α) (index : Int) (x : α) : Except IndexFault (List α) := do
  let i ← slot xs.length index
  return xs.set i x

theorem read_of_slot {α : Type} {xs : List α} {index : Int} {i : Nat} {x : α}
    (hs : slot xs.length index = .ok i) (hx : xs[i]? = some x) : read xs index = .ok x := by
  rw [read, hs]
  simp only [bind, Except.bind, hx]
  rfl

theorem read_of_fault {α : Type} {xs : List α} {index : Int} {e : IndexFault}
    (hs : slot xs.length index = .error e) : read xs index = .error e := by
  rw [read, hs]
  rfl

theorem write_of_slot {α : Type} {xs : List α} {index : Int} {i : Nat} {x : α}
    (hs : slot xs.length index = .ok i) : write xs index x = .ok (xs.set i x) := by
  rw [write, hs]
  rfl

/-- A forest whose parents may be any signed numbers. -/
structure Rows where
  parent : List Int
  rank : List Nat

namespace Rows

/-- A program on the rows.  It may end with a fault, with the rows as they are then, or not end. -/
abbrev Act := ExceptT IndexFault (StateT Rows Part)

/-- What a program makes of some rows, if it ends. -/
def outcome {α : Type} (act : Act α) (d : Rows) : Part (Except IndexFault α × Rows) :=
  act.run.run d

def parentAt (index : Int) : Act Int := ExceptT.mk fun d => Part.some (read d.parent index, d)

def rankAt (index : Int) : Act Nat := ExceptT.mk fun d => Part.some (read d.rank index, d)

def setParent (index p : Int) : Act Unit := ExceptT.mk fun d =>
  match write d.parent index p with
  | .error e => Part.some (.error e, d)
  | .ok parent => Part.some (.ok (), { d with parent })

def setRank (index : Int) (r : Nat) : Act Unit := ExceptT.mk fun d =>
  match write d.rank index r with
  | .error e => Part.some (.error e, d)
  | .ok rank => Part.some (.ok (), { d with rank })

/-- What a loop does after a round: it ends, or it starts the next round. -/
def afterRound {α β : Type} :
    Except IndexFault (β ⊕ α) × Rows → (Except IndexFault β × Rows) ⊕ (α × Rows)
  | (.error e, d) => .inl (.error e, d)
  | (.ok (.inl b), d) => .inl (.ok b, d)
  | (.ok (.inr a), d) => .inr (a, d)

/-- Repeats a program, each time with what the last round gave, until one gives a result. -/
def loop {α β : Type} (body : α → Act (β ⊕ α)) (start : α) : Act β := ExceptT.mk fun d =>
  PFun.fix (fun s => (outcome (body s.1) s.2).map afterRound) (start, d)

/-- A round of the first walk: goes on to the parent, unless the number is its own. -/
def up (i : Int) : Act (Int ⊕ Int) := do
  let p ← parentAt i
  return if p = i then .inl i else .inr p

/-- A round of the second walk: points the entry at `root` and goes on, unless it is. -/
def point (root i : Int) : Act (Unit ⊕ Int) := do
  let p ← parentAt i
  if p = root then return .inl ()
  setParent i root
  return .inr p

def find (index : Int) : Act Int := do
  let root ← loop up index
  loop (point root) index
  return root

/-- Hangs `b` below `a`, whose rank grows if theirs are equal. -/
def hang (a b : Int) : Act Unit := do
  setParent b a
  if (← rankAt a) = (← rankAt b) then
    setRank a ((← rankAt a) + 1)

def link (a b : Int) : Act Unit := do
  if (← rankAt a) < (← rankAt b) then hang b a else hang a b

def union (a b : Int) : Act Bool := do
  let rootA ← find a
  let rootB ← find b
  if rootA = rootB then return false
  link rootA rootB
  return true

/-! ### Outcomes -/

section
variable {α β : Type} {act : Act α} {next : α → Act β} {d d' : Rows} {e : IndexFault} {x : α}

theorem outcome_pure : outcome (pure x) d = .some (.ok x, d) := rfl

theorem outcome_bind (h : outcome act d = .some (.ok x, d')) :
    outcome (act >>= next) d = outcome (next x) d' := by
  unfold outcome at *
  rw [ExceptT.run_bind, StateT.run_bind, h]
  exact Part.bind_some _ _

theorem outcome_bind_fault (h : outcome act d = .some (.error e, d')) :
    outcome (act >>= next) d = .some (.error e, d') := by
  unfold outcome at *
  rw [ExceptT.run_bind, StateT.run_bind, h]
  exact Part.bind_some _ _

theorem outcome_parentAt {index : Int} {r : Except IndexFault Int} (h : read d.parent index = r) :
    outcome (parentAt index) d = .some (r, d) :=
  h ▸ rfl

theorem outcome_rankAt {index : Int} {r : Except IndexFault Nat} (h : read d.rank index = r) :
    outcome (rankAt index) d = .some (r, d) :=
  h ▸ rfl

theorem outcome_setParent {index p : Int} {i : Nat} (hs : slot d.parent.length index = .ok i) :
    outcome (setParent index p) d = .some (.ok (), { d with parent := d.parent.set i p }) := by
  simp only [outcome, setParent, ExceptT.run_mk, StateT.run, write_of_slot hs]

theorem outcome_setRank {index : Int} {r i : Nat} (hs : slot d.rank.length index = .ok i) :
    outcome (setRank index r) d = .some (.ok (), { d with rank := d.rank.set i r }) := by
  simp only [outcome, setRank, ExceptT.run_mk, StateT.run, write_of_slot hs]

end

section
variable {α β : Type} {body : α → Act (β ⊕ α)} {a : α} {d d' : Rows}

theorem outcome_loop_stop {b : β} (h : outcome (body a) d = .some (.ok (.inl b), d')) :
    outcome (loop body a) d = .some (.ok b, d') := by
  refine Part.eq_some_iff.mpr (PFun.fix_stop ?_)
  simp [h, afterRound]

theorem outcome_loop_fault {e : IndexFault} (h : outcome (body a) d = .some (.error e, d')) :
    outcome (loop body a) d = .some (.error e, d') := by
  refine Part.eq_some_iff.mpr (PFun.fix_stop ?_)
  simp [h, afterRound]

theorem outcome_loop_next {a' : α} (h : outcome (body a) d = .some (.ok (.inr a'), d')) :
    outcome (loop body a) d = outcome (loop body a') d' := by
  refine PFun.fix_fwd_eq ?_
  simp [h, afterRound]

end

end Rows

/-! ### The walks -/

/-- The rows of a forest. -/
def rows (d : DisjointSet) : Rows := ⟨d.parent.map fun p : Nat => (p : Int), d.rank⟩

@[simp] theorem length_rows_parent (d : DisjointSet) : d.rows.parent.length = d.size :=
  List.length_map _

theorem Repoints.lt_length {root i : Nat} {parent parent' : List Nat}
    (h : Repoints root parent i parent') : i < parent.length := by
  cases h with
  | done h => exact (List.getElem?_eq_some_iff.mp h).1
  | step h _ _ => exact (List.getElem?_eq_some_iff.mp h).1

namespace Rows

theorem read_parent {d : DisjointSet} {index : Int} {i p : Nat} (hs : slot d.size index = .ok i)
    (hp : d.parent[i]? = some p) : read d.rows.parent index = .ok (p : Int) :=
  read_of_slot (by rwa [length_rows_parent]) (by simp [rows, hp])

theorem outcome_up {d : DisjointSet} {index : Int} {i p : Nat} (hs : slot d.size index = .ok i)
    (hp : d.parent[i]? = some p) :
    outcome (up index) d.rows =
      .some (.ok (if (p : Int) = index then .inl index else .inr (p : Int)), d.rows) := by
  rw [up, outcome_bind (outcome_parentAt (read_parent hs hp)), outcome_pure]

/-- Whatever index an element is given by, the first walk ends where its climb does. -/
theorem outcome_climb {d : DisjointSet} {i r : Nat} (h : Climbs d.parent i r) {index : Int}
    (hs : slot d.size index = .ok i) :
    outcome (loop up index) d.rows = .some (.ok (r : Int), d.rows) := by
  induction h generalizing index with
  | @root i hp =>
      have hup := outcome_up hs hp
      by_cases e : (i : Int) = index
      · rw [if_pos e, ← e] at hup
        rw [← e]
        exact outcome_loop_stop hup
      · -- the root, by a negative index: one step leads to the place it stands for
        rw [if_neg e] at hup
        rw [outcome_loop_next hup]
        have hagain := outcome_up (Sequence.slot_natCast (Sequence.slot_lt hs)) hp
        rw [if_pos rfl] at hagain
        exact outcome_loop_stop hagain
  | @step i p r hp hne h ih =>
      have e : (p : Int) ≠ index := by
        have := Sequence.slot_eq_ok_iff.mp hs
        omega
      have hup := outcome_up hs hp
      rw [if_neg e] at hup
      rw [outcome_loop_next hup]
      exact ih (Sequence.slot_natCast h.lt_length)

theorem outcome_climb_fault {d : DisjointSet} {index : Int} {e : IndexFault}
    (hs : slot d.size index = .error e) :
    outcome (loop up index) d.rows = .some (.error e, d.rows) := by
  have hread : read d.rows.parent index = .error e := read_of_fault (by rwa [length_rows_parent])
  exact outcome_loop_fault (by rw [up, outcome_bind_fault (outcome_parentAt hread)])

theorem outcome_repoint {parent parent' : List Nat} {i r : Nat} (rank : List Nat)
    (h : Repoints r parent i parent') {index : Int} (hs : slot parent.length index = .ok i) :
    outcome (loop (point r) index) (rows ⟨parent, rank⟩) =
      .some (.ok (), rows ⟨parent', rank⟩) := by
  induction h generalizing index with
  | @done parent i hp =>
      have hread := outcome_parentAt (read_parent (d := ⟨parent, rank⟩) hs hp)
      exact outcome_loop_stop (by rw [point, outcome_bind hread, if_pos rfl, outcome_pure])
  | @step parent parent' i p hp hne h ih =>
      have hread := outcome_parentAt (read_parent (d := ⟨parent, rank⟩) hs hp)
      have e : (p : Int) ≠ r := by exact_mod_cast hne
      have hset : outcome (setParent index r) (rows ⟨parent, rank⟩) =
          .some (.ok (), rows ⟨parent.set i r, rank⟩) := by
        rw [outcome_setParent (by simpa [rows] using hs)]
        simp [rows, List.map_set]
      have hpoint : outcome (point r index) (rows ⟨parent, rank⟩) =
          .some (.ok (.inr (p : Int)), rows ⟨parent.set i r, rank⟩) := by
        rw [point, outcome_bind hread, if_neg e, outcome_bind hset, outcome_pure]
      rw [outcome_loop_next hpoint]
      exact ih (Sequence.slot_natCast h.lt_length)

/-! ### The operations -/

/-- A look-up by any index ends on the rows of a well-formed forest, as it does on the forest. -/
theorem outcome_find {d : DisjointSet} (hd : d.WellFormed) (index : Int) :
    outcome (find index) d.rows =
      .some ((d.find index).1.map fun r : Nat => (r : Int), (d.find index).2.rows) := by
  cases h : slot d.size index with
  | error e =>
      rw [find_of_fault h, find, outcome_bind_fault (outcome_climb_fault h)]
      rfl
  | ok i =>
      have hi := Sequence.slot_lt h
      rw [find_of_slot h, find, outcome_bind (outcome_climb (climbs_root hd hi) h),
        outcome_bind (outcome_repoint d.rank (repoints_compressed hd hi) h), outcome_pure]
      rfl

theorem outcome_rank {d : DisjointSet} (hlen : d.rank.length = d.size) {i : Nat}
    (hi : i < d.size) :
    outcome (rankAt (i : Int)) d.rows = .some (.ok (d.rank.getD i 0), d.rows) := by
  have hi' : i < d.rank.length := by rwa [hlen]
  exact outcome_rankAt (read_of_slot (Sequence.slot_natCast hi') (by simp [rows, hi']))

/-- Hanging one root below another does on the rows what it does on the forest. -/
theorem outcome_hang {d : DisjointSet} (hlen : d.rank.length = d.size) {a b : Nat}
    (ha : a < d.size) (hb : b < d.size) :
    outcome (hang a b) d.rows = .some (.ok (), (d.hung a b).rows) := by
  let below : DisjointSet := { d with parent := d.parent.set b a }
  have hset : outcome (setParent b a) d.rows = .some (.ok (), below.rows) := by
    rw [outcome_setParent (Sequence.slot_natCast (by rwa [length_rows_parent]))]
    simp [below, rows, List.map_set]
  have hrank {i : Nat} (hi : i < d.size) :
      outcome (rankAt (i : Int)) below.rows = .some (.ok (d.rank.getD i 0), below.rows) :=
    outcome_rank (d := below) (by simpa [below, size] using hlen) (by simpa [below, size] using hi)
  rw [hang, outcome_bind hset, outcome_bind (hrank ha), outcome_bind (hrank hb)]
  by_cases e : d.rank.getD a 0 = d.rank.getD b 0
  · have ha' : a < below.rows.rank.length := by rwa [← hlen] at ha
    rw [if_pos e, outcome_bind (hrank ha), outcome_setRank (Sequence.slot_natCast ha')]
    simp only [hung, if_pos e, below, rows]
  · rw [if_neg e, outcome_pure]
    simp only [hung, if_neg e, below, rows]

theorem outcome_link {d : DisjointSet} (hlen : d.rank.length = d.size) {a b : Nat}
    (ha : a < d.size) (hb : b < d.size) :
    outcome (link a b) d.rows = .some (.ok (), (d.link a b).rows) := by
  rw [link, outcome_bind (outcome_rank hlen ha), outcome_bind (outcome_rank hlen hb)]
  rcases link_eq_hung d a b with ⟨hr, h⟩ | ⟨hr, h⟩ <;> rw [h]
  · rw [if_neg (Nat.not_lt.mpr hr)]
    exact outcome_hang hlen ha hb
  · rw [if_pos hr]
    exact outcome_hang hlen hb ha

/-- A union by any indexes ends on the rows of a well-formed forest, as it does on the forest. -/
theorem outcome_union {d : DisjointSet} (hd : d.WellFormed) (a b : Int) :
    outcome (union a b) d.rows = .some ((d.union a b).1, (d.union a b).2.rows) := by
  have hfindA := outcome_find hd a
  cases ha : slot d.size a with
  | error e =>
      rw [find_of_fault ha] at hfindA
      rw [union_of_fault_left ha, union, outcome_bind_fault hfindA]
  | ok i =>
      have hi := Sequence.slot_lt ha
      have hfindB := outcome_find (wellFormed_compressed hd hi) b
      rw [find_of_slot ha] at hfindA
      cases hb : slot d.size b with
      | error e =>
          rw [find_of_fault (by rwa [size_compressed])] at hfindB
          rw [union_of_fault_right ha hb, union, outcome_bind hfindA, outcome_bind_fault hfindB]
      | ok j =>
          have hj := Sequence.slot_lt hb
          rw [find_of_slot (by rwa [size_compressed]), root_compressed hd hi hj] at hfindB
          rw [union_of_slot ha hb, union_natCast hd hi hj, union, outcome_bind hfindA,
            outcome_bind hfindB]
          by_cases e : d.root i = d.root j
          · rw [if_pos e, if_pos (congrArg _ e), outcome_pure]
          · have e' : (d.root i : Int) ≠ d.root j := by exact_mod_cast e
            obtain ⟨hd₂, -, hroots⟩ := compressed_compressed hd hi hj
            have hlink := outcome_link hd₂.length_rank (hd₂.parent_lt (hroots i hi).2)
              (hd₂.parent_lt (hroots j hj).2)
            rw [if_neg e, if_neg e', outcome_bind hlink, outcome_pure]

/-- The rows after a call, if it ends. -/
def after (d : Rows) : Call → Part Rows
  | .find i => (outcome (find i) d).map Prod.snd
  | .union a b => (outcome (union a b) d).map Prod.snd

/-- The rows of `n` single elements after some calls, if all of them end. -/
def run (n : Nat) (calls : List Call) : Part Rows := calls.foldlM after (ofSize n).rows

theorem after_rows {d : DisjointSet} (hd : d.WellFormed) (c : Call) :
    after d.rows c = .some (c.after d).rows := by
  cases c with
  | find i => rw [after, outcome_find hd, Part.map_some, Call.after]
  | union a b => rw [after, outcome_union hd, Part.map_some, Call.after]

/-- The rows of signed numbers are those of the forest at all times. -/
theorem run_rows (n : Nat) (calls : List Call) :
    run n calls = .some (DisjointSet.run n calls).rows := by
  induction calls using List.reverseRecOn with
  | nil => rfl
  | append_singleton calls c ih =>
      rw [run] at ih
      rw [run, List.foldlM_append, ih, run_concat]
      simp [after_rows (wellFormed_run n calls)]

end Rows

/-- The numbers in the rows are elements. -/
theorem mem_rows_parent {d : DisjointSet} (hd : d.WellFormed) {p : Int} (h : p ∈ d.rows.parent) :
    0 ≤ p ∧ p < d.size := by
  obtain ⟨q, hq, rfl⟩ := List.mem_map.mp h
  obtain ⟨i, hi⟩ := List.mem_iff_getElem?.mp hq
  have := hd.parent_lt hi
  omega

/-- A number that a look-up on the rows gives is an element. -/
theorem Rows.find_lt {d : DisjointSet} (hd : d.WellFormed) {i r : Int} {d' : Rows}
    (h : outcome (find i) d.rows = .some (.ok r, d')) : 0 ≤ r ∧ r < d.size := by
  rw [outcome_find hd, Part.some_inj] at h
  cases hs : slot d.size i with
  | error e =>
      rw [find_of_fault hs] at h
      cases h
  | ok k =>
      rw [find_of_slot hs] at h
      have hr : r = d.root k := by
        cases h
        rfl
      have hlt := hd.parent_lt (climbs_root hd (Sequence.slot_lt hs)).isRoot
      omega

end ContractSurvey.DisjointSet
