import ContractSurvey.Proofs.DisjointSet.Union
import Mathlib.Logic.Relation

/-!
# Proofs — DisjointSet — Calls

Runs of look-ups and unions on the forest of `n` elements.  Two elements are *related* when the
reflexive, symmetric and transitive closure of the joined pairs relates them.

`Represents` is what every call keeps: the forest is well-formed and its roots tell which elements
are related.  `run_classes` reads it off for the calls themselves: each of them ends, two look-ups
agree exactly on related elements, and a union says whether the two were apart.
-/

namespace ContractSurvey.DisjointSet

/-! ### The operations without a bound on their steps -/

/-- A look-up whose two walks end: the root of an element, and the forest it leaves. -/
structure Finds (d : DisjointSet) (i r : Nat) (d' : DisjointSet) : Prop where
  climbs : Climbs d.parent i r
  repoints : Repoints r d.parent i d'.parent
  rank_eq : d'.rank = d.rank

/-- A union whose two look-ups end: whether the elements were apart, and the forest it leaves. -/
def Unions (d : DisjointSet) (a b : Nat) (apart : Bool) (d' : DisjointSet) : Prop :=
  ∃ rootA d₁ rootB d₂, Finds d a rootA d₁ ∧ Finds d₁ b rootB d₂ ∧
    if rootA = rootB then apart = false ∧ d' = d₂
    else apart = true ∧ d' = d₂.link rootA rootB

theorem finds_root {d : DisjointSet} (hd : d.WellFormed) {i : Nat} (hi : i < d.size) :
    Finds d i (d.root i) (d.compressed i) :=
  ⟨climbs_root hd hi, repoints_compressed hd hi, rfl⟩

theorem unions_root {d : DisjointSet} (hd : d.WellFormed) {a b : Nat} (ha : a < d.size)
    (hb : b < d.size) :
    Unions d a b (decide (d.root a ≠ d.root b)) (d.union (a : Int) (b : Int)).2 := by
  have hb' : b < (d.compressed a).size := by rwa [size_compressed]
  have hfb := finds_root (wellFormed_compressed hd ha) hb'
  rw [root_compressed hd ha hb] at hfb
  refine ⟨_, _, _, _, finds_root hd ha, hfb, ?_⟩
  rw [union_natCast hd ha hb]
  by_cases e : d.root a = d.root b <;> simp [e]

/-- Whether two look-ups, one after the other, give the same root. -/
def Together (d : DisjointSet) (i j : Int) : Prop := (d.find i).1 = ((d.find i).2.find j).1

theorem together_natCast {d : DisjointSet} (hd : d.WellFormed) {i j : Nat} (hi : i < d.size)
    (hj : j < d.size) : d.Together i j ↔ d.root i = d.root j := by
  have hj' : j < (d.compressed i).size := by rwa [size_compressed]
  simp only [Together, find_natCast hi, find_natCast hj', root_compressed hd hi hj,
    Except.ok.injEq]

/-! ### Calls -/

/-- A call of one of the two operations. -/
inductive Call where
  | find (index : Int)
  | union (a b : Int)

namespace Call

/-- Every index of the call is the place of one of `n` elements. -/
def Within (n : Nat) : Call → Prop
  | .find i => 0 ≤ i ∧ i < n
  | .union a b => (0 ≤ a ∧ a < n) ∧ 0 ≤ b ∧ b < n

instance (n : Nat) : (c : Call) → Decidable (c.Within n)
  | .find i => inferInstanceAs (Decidable (0 ≤ i ∧ i < n))
  | .union a b => inferInstanceAs (Decidable ((0 ≤ a ∧ a < n) ∧ 0 ≤ b ∧ b < n))

/-- The forest after a call. -/
def after (d : DisjointSet) : Call → DisjointSet
  | .find i => (d.find i).2
  | .union a b => (d.union a b).2

end Call

/-- The forest of `n` elements after some calls. -/
def run (n : Nat) (calls : List Call) : DisjointSet := calls.foldl Call.after (ofSize n)

theorem run_concat (n : Nat) (calls : List Call) (c : Call) :
    run n (calls ++ [c]) = c.after (run n calls) := by
  simp [run]

/-- One of the calls is a union of the two. -/
def Joined (calls : List Call) (a b : Nat) : Prop := .union (a : Int) (b : Int) ∈ calls

/-- The reflexive, symmetric and transitive closure of the joined pairs. -/
def Related (calls : List Call) : Nat → Nat → Prop := Relation.EqvGen (Joined calls)

theorem Related.mono {calls more : List Call} {i j : Nat} (h : Related calls i j) :
    Related (calls ++ more) i j :=
  Relation.EqvGen.mono (fun _ _ => List.mem_append_left more) i j h

theorem related_concat_find {calls : List Call} {k : Int} {i j : Nat} :
    Related (calls ++ [.find k]) i j ↔ Related calls i j := by
  have h : Joined (calls ++ [.find k]) = Joined calls := by
    funext a b
    simp [Joined]
  rw [Related, h, Related]

/-- What agrees on joined elements agrees on related ones. -/
theorem Related.apply_eq {α : Type} {calls : List Call} {f : Nat → α}
    (hf : ∀ a b, Joined calls a b → f a = f b) {i j : Nat} (h : Related calls i j) : f i = f j :=
  congrArg (Quot.lift f hf) (Quot.eqvGen_sound h)

/-- An element that is related with another one is in one of the unions. -/
theorem Related.eq_or_joined {calls : List Call} {i j : Nat} (h : Related calls i j) :
    i = j ∨ ∃ k, Joined calls i k ∨ Joined calls k i := by
  classical
  by_cases hi : ∃ k, Joined calls i k ∨ Joined calls k i
  · exact .inr hi
  · -- all elements in unions are told by the same, and every other one by itself
    let alone (k : Nat) : Option Nat :=
      if ∃ m, Joined calls k m ∨ Joined calls m k then none else some k
    have hjoined : ∀ a b, Joined calls a b → alone a = alone b := by
      intro a b hab
      have ha : alone a = none := if_pos ⟨b, .inl hab⟩
      have hb : alone b = none := if_pos ⟨a, .inr hab⟩
      exact ha.trans hb.symm
    have halone : alone i = alone j := h.apply_eq hjoined
    simp only [alone, if_neg hi] at halone
    split at halone
    · cases halone
    · exact .inl (Option.some.inj halone)

/-! ### What every call keeps -/

/-- The forest is well-formed, has `n` elements, and its roots tell which ones the calls relate. -/
structure Represents (n : Nat) (calls : List Call) (d : DisjointSet) : Prop where
  wellFormed : d.WellFormed
  size_eq : d.size = n
  joined {a b : Nat} : Joined calls a b → a < n ∧ b < n ∧ d.root a = d.root b
  related {i j : Nat} : i < n → j < n → d.root i = d.root j → Related calls i j

theorem Represents.root_eq_iff {n : Nat} {calls : List Call} {d : DisjointSet}
    (h : Represents n calls d) {i j : Nat} (hi : i < n) (hj : j < n) :
    d.root i = d.root j ↔ Related calls i j :=
  ⟨h.related hi hj, Related.apply_eq fun _ _ hab => (h.joined hab).2.2⟩

theorem root_ofSize {n i : Nat} (hi : i < n) : (ofSize n).root i = i :=
  Climbs.root_eq (wellFormed_ofSize n) (.root (by simp [ofSize, hi]))

theorem represents_ofSize (n : Nat) : Represents n [] (ofSize n) where
  wellFormed := wellFormed_ofSize n
  size_eq := size_ofSize n
  joined h := by simp [Joined] at h
  related {i j} hi hj h := by
    rw [root_ofSize hi, root_ofSize hj] at h
    exact h ▸ .refl i

theorem Represents.find {n : Nat} {calls : List Call} {d : DisjointSet}
    (h : Represents n calls d) {k : Nat} (hk : k < n) :
    Represents n (calls ++ [.find k]) (d.find k).2 := by
  obtain ⟨hd, rfl, hjoined, hrelated⟩ := h
  rw [find_natCast hk]
  refine ⟨wellFormed_compressed hd hk, size_compressed d k, fun {a b} hab => ?_,
    fun {i j} hi hj hij => ?_⟩
  · obtain ⟨ha, hb, hab⟩ := hjoined (by simpa [Joined] using hab)
    exact ⟨ha, hb, by rw [root_compressed hd hk ha, root_compressed hd hk hb, hab]⟩
  · rw [root_compressed hd hk hi, root_compressed hd hk hj] at hij
    exact (hrelated hi hj hij).mono

theorem Represents.union {n : Nat} {calls : List Call} {d : DisjointSet}
    (h : Represents n calls d) {a b : Nat} (ha : a < n) (hb : b < n) :
    Represents n (calls ++ [.union a b]) (d.union a b).2 := by
  obtain ⟨hd, rfl, hjoined, hrelated⟩ := h
  obtain ⟨hd', hsize, hroot⟩ := root_union hd ha hb
  have hab : Related (calls ++ [.union a b]) a b := .rel _ _ (by simp [Joined])
  refine ⟨hd', hsize, fun {x y} hxy => ?_, fun {i j} hi hj hij => ?_⟩
  · rcases List.mem_append.mp hxy with hxy | hxy
    · obtain ⟨hx, hy, hxy⟩ := hjoined hxy
      exact ⟨hx, hy, (hroot x hx y hy).mpr (.inl hxy)⟩
    · obtain ⟨rfl, rfl⟩ : x = a ∧ y = b := by simpa [Int.natCast_inj] using hxy
      exact ⟨ha, hb, (hroot x ha y hb).mpr (.inr (.inl ⟨rfl, rfl⟩))⟩
  · rcases (hroot i hi j hj).mp hij with e | ⟨ei, ej⟩ | ⟨ei, ej⟩
    · exact (hrelated hi hj e).mono
    · exact .trans _ _ _ (hrelated hi ha ei).mono
        (.trans _ _ _ hab (.symm _ _ (hrelated hj hb ej).mono))
    · exact .trans _ _ _ (hrelated hi hb ei).mono
        (.trans _ _ _ (.symm _ _ hab) (.symm _ _ (hrelated hj ha ej).mono))

theorem Represents.after {n : Nat} {calls : List Call} {d : DisjointSet}
    (h : Represents n calls d) {c : Call} (hc : c.Within n) :
    Represents n (calls ++ [c]) (c.after d) := by
  cases c with
  | find k =>
      lift k to ℕ using hc.1
      exact h.find (Int.ofNat_lt.mp hc.2)
  | union a b =>
      lift a to ℕ using hc.1.1
      lift b to ℕ using hc.2.1
      exact h.union (Int.ofNat_lt.mp hc.1.2) (Int.ofNat_lt.mp hc.2.2)

theorem represents_run {n : Nat} {calls : List Call} (h : ∀ c ∈ calls, c.Within n) :
    Represents n calls (run n calls) := by
  induction calls using List.reverseRecOn with
  | nil => exact represents_ofSize n
  | append_singleton calls c ih =>
      rw [run_concat]
      exact (ih fun c hc => h c (List.mem_append_left _ hc)).after (h c (by simp))

/-- **The classes are the closure of the joined pairs**, after any calls within `n`.  The next
look-up ends, whatever its element, and so does the next union; two look-ups agree exactly on
related elements; a union says that its two were apart exactly if they were not related; and a
look-up changes nothing of this. -/
theorem run_classes {n : Nat} {calls : List Call} (h : ∀ c ∈ calls, c.Within n) :
    (∀ i < n, ∃ r d', (run n calls).find (i : Int) = (.ok r, d') ∧ Finds (run n calls) i r d') ∧
    (∀ i < n, ∀ j < n, (run n calls).Together i j ↔ Related calls i j) ∧
    (∀ a < n, ∀ b < n, ∃ apart d', (run n calls).union (a : Int) (b : Int) = (.ok apart, d') ∧
      Unions (run n calls) a b apart d' ∧ (apart = true ↔ ¬ Related calls a b)) ∧
    ∀ k < n, ∀ i < n, ∀ j < n,
      ((run n calls).find (k : Int)).2.Together i j ↔ (run n calls).Together i j := by
  have hr := represents_run h
  have hsize {i : Nat} (hi : i < n) : i < (run n calls).size := hr.size_eq.symm ▸ hi
  have htogether : ∀ i < n, ∀ j < n, (run n calls).Together i j ↔ Related calls i j := by
    intro i hi j hj
    rw [together_natCast hr.wellFormed (hsize hi) (hsize hj), hr.root_eq_iff hi hj]
  refine ⟨fun i hi => ?_, htogether, fun a ha b hb => ?_, fun k hk i hi j hj => ?_⟩
  · exact ⟨_, _, find_natCast (hsize hi), finds_root hr.wellFormed (hsize hi)⟩
  · refine ⟨_, _, ?_, unions_root hr.wellFormed (hsize ha) (hsize hb), ?_⟩
    · rw [union_natCast hr.wellFormed (hsize ha) (hsize hb)]
      by_cases e : (run n calls).root a = (run n calls).root b <;> simp [e]
    · rw [decide_eq_true_iff, ne_eq, hr.root_eq_iff ha hb]
  · have hf := hr.find hk
    have hsize' {i : Nat} (hi : i < n) : i < ((run n calls).find (k : Int)).2.size :=
      hf.size_eq.symm ▸ hi
    rw [together_natCast hf.wellFormed (hsize' hi) (hsize' hj), hf.root_eq_iff hi hj,
      related_concat_find, htogether i hi j hj]

/-- A chain of three unions with a look-up in between relates its ends, and nothing to an element
that no union names. -/
theorem run_classes_chain :
    (∀ c ∈ [.union 0 1, .union 2 3, .find 3, .union 3 1], Call.Within 5 c) ∧
      Related [.union 0 1, .union 2 3, .find 3, .union 3 1] 0 3 ∧
      ¬ Related [.union 0 1, .union 2 3, .find 3, .union 3 1] 0 4 := by
  have hc : ∀ c ∈ [.union 0 1, .union 2 3, .find 3, .union 3 1], Call.Within 5 c := by decide
  obtain ⟨-, htogether, -, -⟩ := run_classes hc
  refine ⟨hc, (htogether 0 (by decide) 3 (by decide)).mp rfl, fun h => ?_⟩
  have h := (htogether 0 (by decide) 4 (by decide)).mpr h
  cases h

end ContractSurvey.DisjointSet
