import ContractSurvey.Comparison.Basic
import ContractSurvey.Comparison.DisjointSet

/-!
# Comparison — Family

Families are the groups that hang together by similarities at or above a threshold, and the matrix
shows all similarities at once, entry by entry as `matrix_eq` says.  A similarity belongs to the
last contracts of its two addresses.
-/

namespace ContractSurvey.Comparison

/-- The similarity from which two contracts are of one family. -/
def familyThreshold : Binary64 := 70

/-- The place of the last contract with this address. -/
def placeOf? (c : Comparison) (address : String) : Option Nat :=
  (c.profiles.reverse.findIdx? (·.address = address)).map fun i => c.profiles.length - 1 - i

/-- The places of a similarity's two contracts, if the comparison has them. -/
def placesOf? (c : Comparison) (s : Similarity) : Option (Nat × Nat) :=
  match c.placeOf? s.first, c.placeOf? s.second with
  | some a, some b => some (a, b)
  | _, _ => none

/-- Joins the contracts of one similarity unless it is below the threshold. -/
def join (c : Comparison) (threshold : Binary64) (d : DisjointSet) (s : Similarity) :
    DisjointSet :=
  if s.percent < threshold then d
  else
    match c.placesOf? s with
    | some (a, b) => (d.union a b).2
    | none => d

/-- The contracts joined by all similarities. -/
def groups (c : Comparison) (threshold : Binary64) : DisjointSet :=
  c.similarities.foldl (c.join threshold) (.ofSize c.profiles.length)

/-- Enters a contract under the root of its place.  Looking for the root compresses the forest. -/
def enter (state : DisjointSet × Ledger Nat (List Profile)) (placed : Profile × Nat) :
    DisjointSet × Ledger Nat (List Profile) :=
  let (d, byRoot) := state
  let (p, i) := placed
  (d.compressed i, byRoot.alter (d.root i) fun members => members.getD [] ++ [p])

/-- The groups of at least two contracts, in the order of their first members. -/
def families (c : Comparison) (threshold : Binary64) : List (List Profile) :=
  let (_, byRoot) := c.profiles.zipIdx.foldl enter (c.groups threshold, [])
  (byRoot.map Prod.snd).filter fun members => 1 < members.length

/-! ### The matrix -/

/-- The similarities by the places of their two contracts, the last one first. -/
def placed (c : Comparison) : List ((Nat × Nat) × Binary64) :=
  c.similarities.reverse.filterMap fun s => (c.placesOf? s).map (·, s.percent)

/-- Whether a pair of places has this place in it. -/
def touches (i : Nat) (p : (Nat × Nat) × Binary64) : Bool := p.1.1 = i || p.1.2 = i

/-- The first of the placed similarities that joins two places; without one, 100 on the diagonal
and 0 elsewhere. -/
def entryIn (placed : List ((Nat × Nat) × Binary64)) (i j : Nat) : Binary64 :=
  match placed.find? fun p => p.1 = (i, j) || p.1 = (j, i) with
  | some p => p.2
  | none => if i = j then 100 else 0

/-- The entry of the matrix for two places. -/
def matrixEntry (c : Comparison) (i j : Nat) : Binary64 := entryIn c.placed i j

/-- The similarities as a square, in the order of the contracts.  A row needs only the similarities
that touch its place. -/
def matrix (c : Comparison) : List (List Binary64) :=
  let places := List.range c.profiles.length
  let all := c.placed
  places.map fun i =>
    let own := all.filter (touches i)
    places.map (entryIn own i)

theorem entryIn_filter (placed : List ((Nat × Nat) × Binary64)) (i j : Nat) :
    entryIn (placed.filter (touches i)) i j = entryIn placed i j := by
  unfold entryIn
  rw [List.find?_filter]
  congr 2
  funext p
  by_cases h : p.1 = (i, j) ∨ p.1 = (j, i)
  · rcases h with h | h <;> simp [touches, h]
  · simp only [not_or] at h
    simp [h.1, h.2]

theorem matrix_eq (c : Comparison) :
    c.matrix = (List.range c.profiles.length).map fun i =>
      (List.range c.profiles.length).map (c.matrixEntry i) := by
  simp only [matrix]
  exact List.map_congr_left fun i _ => List.map_congr_left fun j _ => entryIn_filter _ i j

end ContractSurvey.Comparison
