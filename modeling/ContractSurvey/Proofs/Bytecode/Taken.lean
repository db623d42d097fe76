import ContractSurvey.Proofs.Bytecode.Scan

/-!
# Proofs — Bytecode — Taken

The places of a scan.  A scan goes from left to right and takes each place where the shape fits,
unless the place lies within a piece that it has already taken (`Taken`).  So a place where the
shape fits is either taken or covered from the left (`taken_or_covered`), and what the scan finds
are the pieces at the places taken (`mem_found_iff`).

The scan itself only knows how many characters are still to pass.  `Passed` says what that number
means for the places behind it, and each step of the scan keeps it.
-/

namespace ContractSurvey.Bytecode.Shape

variable {shape : Shape} {cs : List Char} {p q skip : Nat}

/-! ### Places taken -/

/-- The shape fits at `p`, and what is taken before `p` ends there or earlier. -/
def Taken (shape : Shape) (cs : List Char) (p : Nat) : Prop :=
  shape.fits (cs.drop p) = true ∧ ∀ q, q < p → Taken shape cs q → q + shape.length ≤ p

theorem taken_iff : shape.Taken cs p ↔
    shape.fits (cs.drop p) = true ∧ ∀ q, q < p → shape.Taken cs q → q + shape.length ≤ p := by
  rw [Taken]

/-- Where the shape fits, only a piece that is taken before keeps the scan from taking it. -/
theorem taken_or_covered (h : shape.fits (cs.drop p) = true) :
    shape.Taken cs p ∨ ∃ q < p, shape.Taken cs q ∧ p < q + shape.length := by
  rw [or_iff_not_imp_right]
  intro hnone
  rw [taken_iff]
  refine ⟨h, fun q hq htaken => Nat.le_of_not_lt fun hlt => hnone ⟨q, hq, htaken, hlt⟩⟩

/-- No place is taken within a piece that is taken. -/
theorem Taken.add_length_le (hp : shape.Taken cs p) (hq : shape.Taken cs q) (h : q < p) :
    q + shape.length ≤ p := (taken_iff.mp hp).2 q h hq

theorem Taken.lt_length (hshape : shape ≠ []) (h : shape.Taken cs p) : p < cs.length := by
  refine Nat.lt_of_not_le fun hle => ?_
  have hfits := (taken_iff.mp h).1
  rw [List.drop_eq_nil_of_le hle] at hfits
  cases shape with
  | nil => exact hshape rfl
  | cons set shape => cases hfits

/-! ### The scan -/

/-- At `p` the scan has still to pass `skip` characters: the pieces taken before end with them at
the latest, and they are the rest of one that is. -/
structure Passed (shape : Shape) (cs : List Char) (p skip : Nat) : Prop where
  le (q : Nat) : q < p → shape.Taken cs q → q + shape.length ≤ p + skip
  covered : skip ≠ 0 → ∃ q < p, shape.Taken cs q ∧ q + shape.length = p + skip

theorem Passed.taken (h : shape.Passed cs p 0) (hfits : shape.fits (cs.drop p) = true) :
    shape.Taken cs p := taken_iff.mpr ⟨hfits, h.le⟩

/-- A character of a piece that is taken is passed. -/
theorem Passed.pass (h : shape.Passed cs p (skip + 1)) :
    ¬ shape.Taken cs p ∧ shape.Passed cs (p + 1) skip := by
  obtain ⟨q, hq, htaken, hend⟩ := h.covered (Nat.succ_ne_zero skip)
  have hcovered : ¬ shape.Taken cs p := by
    intro hp
    have hle := hp.add_length_le htaken hq
    omega
  refine ⟨hcovered, fun r hr hr' => ?_, fun _ => ⟨q, by omega, htaken, by omega⟩⟩
  rcases Nat.lt_succ_iff_lt_or_eq.mp hr with hlt | rfl
  · have hle := h.le r hlt hr'
    omega
  · exact absurd hr' hcovered

/-- A piece is taken. -/
theorem Passed.take (hshape : shape ≠ []) (h : shape.Passed cs p 0) (htaken : shape.Taken cs p) :
    shape.Passed cs (p + 1) (shape.length - 1) := by
  have hpos := List.length_pos_iff.mpr hshape
  refine ⟨fun q hq hq' => ?_, fun _ => ⟨p, Nat.lt_succ_self p, htaken, by omega⟩⟩
  rcases Nat.lt_succ_iff_lt_or_eq.mp hq with hlt | rfl
  · have hle := h.le q hlt hq'
    omega
  · omega

/-- A place where the shape does not fit is passed. -/
theorem Passed.miss (h : shape.Passed cs p 0) (htaken : ¬ shape.Taken cs p) :
    shape.Passed cs (p + 1) 0 := by
  refine ⟨fun q hq hq' => ?_, fun hne => absurd rfl hne⟩
  rcases Nat.lt_succ_iff_lt_or_eq.mp hq with hlt | rfl
  · have hle := h.le q hlt hq'
    omega
  · exact absurd hq' htaken

theorem exists_taken_succ {P : Nat → Prop} : (∃ q, p ≤ q ∧ shape.Taken cs q ∧ P q) ↔
    shape.Taken cs p ∧ P p ∨ ∃ q, p + 1 ≤ q ∧ shape.Taken cs q ∧ P q := by
  constructor
  · rintro ⟨q, hle, hq⟩
    rcases Nat.eq_or_lt_of_le hle with rfl | hlt
    · exact .inl hq
    · exact .inr ⟨q, hlt, hq⟩
  · rintro (hp | ⟨q, hle, hq⟩)
    · exact ⟨p, Nat.le_refl p, hp⟩
    · exact ⟨q, Nat.le_of_succ_le hle, hq⟩

theorem eq_drop_succ {c : Char} {rest : List Char} (h : c :: rest = cs.drop p) :
    rest = cs.drop (p + 1) := by
  rw [← List.drop_drop, ← h]
  rfl

/-- From a place on, the scan finds the pieces that are taken from there on. -/
theorem mem_foundFrom_iff (hshape : shape ≠ []) {rest piece : List Char} (hrest : rest = cs.drop p)
    (h : shape.Passed cs p skip) : piece ∈ shape.foundFrom skip rest ↔
      ∃ q, p ≤ q ∧ shape.Taken cs q ∧ piece = (cs.drop q).take shape.length := by
  fun_induction foundFrom shape skip rest generalizing p with
  | case1 =>
      -- nothing fits at the end of the text
      have hend := List.drop_eq_nil_iff.mp hrest.symm
      simp only [List.not_mem_nil, false_iff, not_exists, not_and]
      intro q hq htaken
      have hlt := htaken.lt_length hshape
      omega
  | case2 skip c rest ih =>
      rw [ih (eq_drop_succ hrest) h.pass.2, exists_taken_succ (p := p)]
      simp [h.pass.1]
  | case3 c rest hfits ih =>
      have htaken : shape.Taken cs p := h.taken (hrest ▸ hfits)
      rw [List.mem_cons, ih (eq_drop_succ hrest) (h.take hshape htaken), exists_taken_succ (p := p),
        hrest]
      simp [htaken]
  | case4 c rest hfits ih =>
      have htaken : ¬ shape.Taken cs p := fun ht => hfits (hrest ▸ (taken_iff.mp ht).1)
      rw [ih (eq_drop_succ hrest) (h.miss htaken), exists_taken_succ (p := p)]
      simp [htaken]

/-- **The places of a scan.**  What it finds are the pieces at the places that it takes. -/
theorem mem_found_iff (hshape : shape ≠ []) {piece : List Char} : piece ∈ shape.found cs ↔
    ∃ p, shape.Taken cs p ∧ piece = (cs.drop p).take shape.length := by
  have hstart : shape.Passed cs 0 0 :=
    ⟨fun q hq => absurd hq (Nat.not_lt_zero q), fun h => absurd rfl h⟩
  rw [found, mem_foundFrom_iff hshape List.drop_zero.symm hstart]
  simp

end ContractSurvey.Bytecode.Shape
