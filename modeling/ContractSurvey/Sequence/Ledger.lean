/-!
# Sequence — Ledger

A finite map that remembers the order in which its keys came.  A key written again keeps its place
and takes the new value.
-/

namespace ContractSurvey

/-- Keys with their values, in the order in which the keys came. -/
abbrev Ledger (κ α : Type) := List (κ × α)

namespace Ledger

variable {κ α : Type} [DecidableEq κ]

/-- The value under a key. -/
def get? (k : κ) : Ledger κ α → Option α
  | [] => none
  | (k', v) :: rest => if k' = k then some v else get? k rest

/-- Replaces the value under a key, or adds the key at the end. -/
def alter (k : κ) (f : Option α → α) : Ledger κ α → Ledger κ α
  | [] => [(k, f none)]
  | (k', v) :: rest => if k' = k then (k', f (some v)) :: rest else (k', v) :: alter k f rest

/-- Writes a value under a key. -/
def put (k : κ) (v : α) (l : Ledger κ α) : Ledger κ α := alter k (fun _ => v) l

/-- Writes pairs from left to right. -/
def ofPairs (ps : List (κ × α)) : Ledger κ α := ps.foldl (fun l p => put p.1 p.2 l) []

def keys (l : Ledger κ α) : List κ := l.map Prod.fst

theorem get?_alter (k j : κ) (f : Option α → α) (l : Ledger κ α) :
    get? j (alter k f l) = if j = k then some (f (get? k l)) else get? j l := by
  induction l with
  | nil => grind [alter, get?]
  | cons p l ih => grind [alter, get?]

theorem get?_put (k j : κ) (v : α) (l : Ledger κ α) :
    get? j (put k v l) = if j = k then some v else get? j l :=
  get?_alter k j _ l

theorem keys_alter (k : κ) (f : Option α → α) (l : Ledger κ α) :
    (alter k f l).keys = if k ∈ l.keys then l.keys else l.keys ++ [k] := by
  induction l with
  | nil => simp [alter, keys]
  | cons p l ih => grind [alter, keys]

end Ledger

/-- How often each element occurs, in the order of first appearance. -/
def tally {κ : Type} [DecidableEq κ] (ks : List κ) : Ledger κ Nat :=
  ks.foldl (fun l k => l.alter k fun n => n.getD 0 + 1) []

end ContractSurvey
