import ContractSurvey.Proofs.DisjointSet.Calls

/-!
# Proofs — DisjointSet — Steps

What the calls come down to, whatever their indexes.  An index that names no element is refused,
and one that counts from the end is as good as the place it stands for, so that the operations know
only the slots of their indexes.

A *step* compresses the way up from an element or links two roots.  Every call takes at most three
of them (`steps_after`), also one that is refused halfway; what a step keeps, the calls keep.
-/

namespace ContractSurvey.DisjointSet

open Relation (ReflTransGen)
open Sequence (IndexFault slot)

/-! ### Indexes -/

theorem find_of_slot {d : DisjointSet} {index : Int} {i : Nat} (h : slot d.size index = .ok i) :
    d.find index = (.ok (d.root i), d.compressed i) := by
  simp only [find, h]

theorem find_of_fault {d : DisjointSet} {index : Int} {e : IndexFault}
    (h : slot d.size index = .error e) : d.find index = (.error e, d) := by
  simp only [find, h]

/-- A look-up knows only the slot of its index. -/
theorem find_congr {d : DisjointSet} {a b : Int} (h : slot d.size a = slot d.size b) :
    d.find a = d.find b := by
  simp only [find, h]

/-- A union knows only the slots of its indexes. -/
theorem union_congr {d : DisjointSet} {a a' b b' : Int} (ha : slot d.size a = slot d.size a')
    (hb : slot d.size b = slot d.size b') : d.union a b = d.union a' b' := by
  have hfind : (d.find a').2.find b = (d.find a').2.find b' :=
    find_congr (by rw [size_find, hb])
  unfold union
  rw [find_congr ha]
  cases h : d.find a' with
  | mk answer after =>
      rw [h] at hfind
      cases answer with
      | error e => rfl
      | ok rootA => simp only [hfind]

theorem union_of_slot {d : DisjointSet} {a b : Int} {i j : Nat} (ha : slot d.size a = .ok i)
    (hb : slot d.size b = .ok j) : d.union a b = d.union (i : Int) (j : Int) :=
  union_congr (ha.trans (Sequence.slot_natCast (Sequence.slot_lt ha)).symm)
    (hb.trans (Sequence.slot_natCast (Sequence.slot_lt hb)).symm)

theorem union_of_fault_left {d : DisjointSet} {a b : Int} {e : IndexFault}
    (h : slot d.size a = .error e) : d.union a b = (.error e, d) := by
  simp only [union, find_of_fault h]

/-- A union that is refused for its second index has looked up the first one. -/
theorem union_of_fault_right {d : DisjointSet} {a b : Int} {i : Nat} {e : IndexFault}
    (ha : slot d.size a = .ok i) (hb : slot d.size b = .error e) :
    d.union a b = (.error e, d.compressed i) := by
  have hb' : slot (d.compressed i).size b = .error e := by rwa [size_compressed]
  simp only [union, find_of_slot ha, find_of_fault hb']

/-! ### Steps -/

/-- One change of the forest. -/
inductive Step : DisjointSet → DisjointSet → Prop where
  | compress {d : DisjointSet} {i : Nat} : i < d.size → Step d (d.compressed i)
  | link {d : DisjointSet} {a b : Nat} : d.parent[a]? = some a → d.parent[b]? = some b → a ≠ b →
      Step d (d.link a b)

theorem Step.wellFormed {d d' : DisjointSet} (h : Step d d') (hd : d.WellFormed) :
    d'.WellFormed := by
  cases h with
  | compress hi => exact wellFormed_compressed hd hi
  | link ha hb hab => exact wellFormed_link hd ha hb hab

theorem Step.size_eq {d d' : DisjointSet} (h : Step d d') : d'.size = d.size := by
  cases h with
  | compress _ => exact size_compressed _ _
  | link _ _ _ => exact size_link _ _ _

/-- **A call takes steps only**, whatever its indexes. -/
theorem steps_after {d : DisjointSet} (hd : d.WellFormed) (c : Call) :
    ReflTransGen Step d (c.after d) := by
  cases c with
  | find index =>
      cases h : slot d.size index with
      | error e => simp only [Call.after, find_of_fault h, ReflTransGen.refl]
      | ok i =>
          rw [Call.after, find_of_slot h]
          exact .single (.compress (Sequence.slot_lt h))
  | union a b =>
      cases ha : slot d.size a with
      | error e => simp only [Call.after, union_of_fault_left ha, ReflTransGen.refl]
      | ok i =>
          have hi := Sequence.slot_lt ha
          have first : ReflTransGen Step d (d.compressed i) := .single (.compress hi)
          cases hb : slot d.size b with
          | error e =>
              rw [Call.after, union_of_fault_right ha hb]
              exact first
          | ok j =>
              have hj := Sequence.slot_lt hb
              have second : ReflTransGen Step d ((d.compressed i).compressed j) :=
                first.tail (.compress (by rwa [size_compressed]))
              obtain ⟨-, -, hroots⟩ := compressed_compressed hd hi hj
              rw [Call.after, union_of_slot ha hb, union_natCast hd hi hj]
              by_cases e : d.root i = d.root j
              · rw [if_pos e]
                exact second
              · rw [if_neg e]
                exact second.tail (.link (hroots i hi).2 (hroots j hj).2 e)

section
variable {P : DisjointSet → Prop}
  (keep : ∀ {d d' : DisjointSet}, d.WellFormed → P d → Step d d' → P d')

include keep

theorem steps_keep {d d' : DisjointSet} (h : ReflTransGen Step d d') (hd : d.WellFormed)
    (hP : P d) : d'.WellFormed ∧ P d' := by
  induction h with
  | refl => exact ⟨hd, hP⟩
  | tail _ hstep ih => exact ⟨hstep.wellFormed ih.1, keep ih.1 ih.2 hstep⟩

/-- **What every step keeps, any calls keep.** -/
theorem run_keep {n : Nat} (start : P (ofSize n)) (calls : List Call) : P (run n calls) := by
  suffices h : (run n calls).WellFormed ∧ P (run n calls) from h.2
  induction calls using List.reverseRecOn with
  | nil => exact ⟨wellFormed_ofSize n, start⟩
  | append_singleton calls c ih =>
      rw [run_concat]
      exact steps_keep keep (steps_after ih.1 c) ih.1 ih.2

end

theorem wellFormed_run (n : Nat) (calls : List Call) : (run n calls).WellFormed :=
  run_keep (fun hd _ hstep => hstep.wellFormed hd) (wellFormed_ofSize n) calls

theorem size_run (n : Nat) (calls : List Call) : (run n calls).size = n :=
  run_keep (P := fun d => d.size = n) (fun _ h hstep => hstep.size_eq.trans h) (size_ofSize n) calls

end ContractSurvey.DisjointSet
