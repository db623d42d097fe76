import ContractSurvey.Sequence.Slice

/-!
# Comparison — DisjointSet

A forest over the numbers below `size`: every element points to its parent and a root to itself.
Finding an element's root points all elements on the way to it; joining two roots makes the one of
greater rank the parent, the first one of two equal ranks.  Walks take at most as many steps as
there are elements.

An index may be negative and then counts from the end.  An index that names no element is refused;
what was done before it was met stays done.
-/

namespace ContractSurvey

structure DisjointSet where
  parent : List Nat
  rank : List Nat
  deriving DecidableEq, Repr

namespace DisjointSet

/-- The forest of `size` single elements. -/
def ofSize (size : Nat) : DisjointSet := ⟨List.range size, List.replicate size 0⟩

def size (d : DisjointSet) : Nat := d.parent.length

/-- The element reached from `i` by going to the parent until a root, at most `steps` times. -/
def climb (parent : List Nat) : Nat → Nat → Nat
  | 0, i => i
  | steps + 1, i =>
    let p := parent.getD i i
    if p = i then i else climb parent steps p

/-- The root of an element. -/
def root (d : DisjointSet) (i : Nat) : Nat := climb d.parent d.size i

/-- Points the elements from `i` up to `root` directly at `root`, at most `steps` of them. -/
def compress (root : Nat) : Nat → Nat → List Nat → List Nat
  | 0, _, parent => parent
  | steps + 1, i, parent =>
    let p := parent.getD i root
    if p = root then parent else compress root steps p (parent.set i root)

/-- The forest after the root of an element was looked for. -/
def compressed (d : DisjointSet) (i : Nat) : DisjointSet :=
  { d with parent := compress (d.root i) d.size i d.parent }

/-- The root of the element that an index names, and the forest after it was looked for. -/
def find (d : DisjointSet) (index : Int) : Except Sequence.IndexFault Nat × DisjointSet :=
  match Sequence.slot d.size index with
  | .error e => (.error e, d)
  | .ok i => (.ok (d.root i), d.compressed i)

/-- Makes one of two different roots the parent of the other. -/
def link (d : DisjointSet) (a b : Nat) : DisjointSet :=
  let (a, b) := if d.rank.getD a 0 < d.rank.getD b 0 then (b, a) else (a, b)
  { parent := d.parent.set b a
    rank :=
      if d.rank.getD a 0 = d.rank.getD b 0 then d.rank.set a (d.rank.getD a 0 + 1) else d.rank }

/-- Joins the sets of two elements; the answer says whether they were apart. -/
def union (d : DisjointSet) (a b : Int) : Except Sequence.IndexFault Bool × DisjointSet :=
  match d.find a with
  | (.error e, d) => (.error e, d)
  | (.ok rootA, d) =>
    match d.find b with
    | (.error e, d) => (.error e, d)
    | (.ok rootB, d) => if rootA = rootB then (.ok false, d) else (.ok true, d.link rootA rootB)

@[simp] theorem size_ofSize (n : Nat) : (ofSize n).size = n := by simp [ofSize, size]

theorem length_compress (root : Nat) (steps i : Nat) (parent : List Nat) :
    (compress root steps i parent).length = parent.length := by
  induction steps generalizing i parent with
  | zero => rfl
  | succ n ih => simp only [compress]; split <;> simp [ih]

theorem size_find (d : DisjointSet) (index : Int) : (d.find index).2.size = d.size := by
  unfold find
  split
  · rfl
  · exact length_compress _ _ _ _

end DisjointSet

end ContractSurvey
