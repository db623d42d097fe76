import ContractSurvey.Digest.Keccak

/-!
# Proofs — Digest — Keccak

A digest has 32 bytes, whatever the message (`length_digest`): every round leaves 25 lanes, and the
digest is made of the first four.
-/

namespace ContractSurvey

namespace Keccak

theorem length_build (f : Nat → Nat → UInt64) : (build f).length = 25 := by
  rw [build, List.length_map, List.length_range]

theorem length_round (s : State) (constant : UInt64) : (round s constant).length = 25 := by
  have hchi : (chi (pi (rho (theta s)))).length = 25 := length_build _
  rw [round]
  split
  · next h =>
      rw [h] at hchi
      cases hchi
  · next h =>
      rw [h] at hchi
      exact hchi

theorem length_foldl_round (cs : List UInt64) {s : State} (h : s.length = 25) :
    (cs.foldl round s).length = 25 := by
  induction cs generalizing s with
  | nil => exact h
  | cons c cs ih => exact ih (length_round s c)

theorem length_permute (s : State) : (permute s).length = 25 := by
  have hne : roundConstants ≠ [] := List.cons_ne_nil _ _
  rw [permute]
  cases hcs : roundConstants with
  | nil => exact absurd hcs hne
  | cons c cs => exact length_foldl_round cs (length_round s c)

theorem length_absorb (n : Nat) {s : State} (ws : List UInt64) (h : s.length = 25) :
    (absorb n s ws).length = 25 := by
  induction n generalizing s ws with
  | zero => exact h
  | succ n ih =>
      rw [absorb]
      split
      · exact h
      · exact ih _ (length_permute _)

theorem length_digest (bytes : List UInt8) : (digest bytes).length = 32 := by
  have hlanes := length_absorb ((words (pad bytes)).length / 17) (words (pad bytes))
    (List.length_replicate (n := 25) (a := (0 : UInt64)))
  have hbytes (s : State) : (s.flatMap littleEndian).length = 8 * s.length := by
    induction s with
    | nil => rfl
    | cons w s ih =>
        rw [List.flatMap_cons, List.length_append, ih, List.length_cons, littleEndian,
          List.length_map, List.length_range]
        omega
  rw [digest, hbytes, List.length_take, hlanes]
  rfl

end Keccak

end ContractSurvey
