import ContractSurvey.Proofs.Text.LowerCase

/-!
# Proofs — Text — Settled

Lower case is final.  A character is settled when it is its own lower case.  What the table moves
to is settled, because no letter that the table moves is the lower case of another one
(`movedLetters_apart`); so a text in lower case is its own lower case (`lowerChars_lowerChars`).

The table has more than a thousand letters, and each would have to be held against every run.  The
letters that move and those they move to are therefore collected in two sets, each of them the bits
of one number, and the two numbers have no bit in common.
-/

namespace ContractSurvey.Text

/-! ### Sets of code points -/

/-- The set of some numbers, as the bits of one. -/
def bits (ns : List Nat) : Nat := ns.foldr (fun n m => Nat.pow 2 n ||| m) 0

theorem testBit_bits {ns : List Nat} {n : Nat} : (bits ns).testBit n = true ↔ n ∈ ns := by
  induction ns with
  | nil => simp [bits]
  | cons k ns ih =>
      have hbits : bits (k :: ns) = Nat.pow 2 k ||| bits ns := rfl
      have hone : (Nat.pow 2 k).testBit n = decide (k = n) := Nat.testBit_two_pow
      rw [hbits, Nat.testBit_or, Bool.or_eq_true, ih, hone, decide_eq_true_iff, List.mem_cons,
        @eq_comm _ k]

theorem not_mem_of_bits {ms ns : List Nat} (h : bits ms &&& bits ns = 0) {n : Nat} (hn : n ∈ ns) :
    n ∉ ms := by
  intro hm
  have hboth : (bits ms &&& bits ns).testBit n = true := by
    rw [Nat.testBit_and, testBit_bits.mpr hm, testBit_bits.mpr hn, Bool.and_true]
  rw [h, Nat.zero_testBit] at hboth
  cases hboth

namespace Run

/-- Code points that are spaced like those of the run, the first one given. -/
def spaced (r : Run) (first : Nat) : List Nat :=
  List.range' first ((r.last - r.first) / r.step + 1) r.step

theorem mem_spaced {r : Run} {n : Nat} (h : r.covers n = true) (first : Nat) :
    first + (n - r.first) ∈ r.spaced first := by
  simp only [covers, Bool.and_eq_true, decide_eq_true_eq, beq_iff_eq] at h
  obtain ⟨⟨-, hlast⟩, hstep⟩ := h
  refine List.mem_range'.mpr ⟨(n - r.first) / r.step, ?_, ?_⟩
  · have := Nat.div_le_div_right (c := r.step) (Nat.sub_le_sub_right hlast r.first)
    omega
  · rw [Nat.mul_div_cancel' (Nat.dvd_of_mod_eq_zero hstep)]

end Run

/-! ### The table -/

/-- The letters beyond ASCII that have a lower case of their own. -/
def movedLetters : List Nat :=
  lowerExpansions.map Prod.fst ++ lowerRuns.flatMap fun r => r.spaced r.first

/-- No letter that moves is the lower case of one on a run. -/
theorem movedLetters_apart : bits movedLetters &&&
    bits (lowerRuns.flatMap fun r => r.spaced (r.first + r.shift).toNat) = 0 := by
  decide +kernel

/-- Runs move to characters, all of them behind the capitals of ASCII. -/
theorem lowerRuns_range : ∀ r ∈ lowerRuns, 90 < r.first + r.shift ∧
    (r.last + r.shift < 0xd800 ∨ 0xe000 ≤ r.first + r.shift ∧ r.last + r.shift < 0x110000) := by
  decide +kernel

theorem toNat_moved {r : Run} (hr : r ∈ lowerRuns) {n : Nat} (hn : r.covers n = true) :
    (r.moved n).toNat = (r.first + r.shift).toNat + (n - r.first) := by
  have hrange := lowerRuns_range r hr
  simp only [Run.covers, Bool.and_eq_true, decide_eq_true_eq] at hn
  have hvalid : (n + r.shift).toNat.isValidChar := by
    rw [Nat.isValidChar]
    omega
  have hmoved : (r.moved n).toNat = (n + r.shift).toNat := congrArg Char.toNat (dif_pos hvalid)
  omega

theorem lowerChar_of_not_mem {c : Char} (hcapital : 90 < c.toNat) (h : c.toNat ∉ movedLetters) :
    lowerChar c = [c] := by
  rw [movedLetters, List.mem_append, not_or] at h
  rw [lowerChar]
  split
  · rcases toLower_cases c with ⟨hc, -⟩ | ⟨-, hle, -⟩
    · rw [hc]
    · omega
  · have hexpansion : lowerExpansions.lookup c.toNat = none := by
      rw [List.lookup_eq_none_iff]
      intro e he
      exact bne_iff_ne.mpr fun heq => h.1 (heq ▸ List.mem_map_of_mem he)
    have hrun : lowerRuns.find? (·.covers c.toNat) = none := by
      refine List.find?_eq_none.mpr fun r hr hcovers => h.2 (List.mem_flatMap.mpr ⟨r, hr, ?_⟩)
      have hmem := Run.mem_spaced hcovers r.first
      simp only [Run.covers, Bool.and_eq_true, decide_eq_true_eq] at hcovers
      rwa [Nat.add_sub_cancel' hcovers.1.1] at hmem
    rw [byTable, hexpansion, hrun]

/-! ### Settled characters -/

theorem lowerChar_toLower {c : Char} (h : c.toNat < 128) : lowerChar c.toLower = [c.toLower] := by
  have hascii : c.toLower.toNat < 128 := by
    rcases toLower_cases c with ⟨hsame, -⟩ | ⟨-, hle, hmoved⟩
    · rwa [hsame]
    · omega
  rw [lowerChar_of_ascii hascii, toLower_toLower]

theorem lowerChar_expanded : ∀ e ∈ lowerExpansions, ∀ n ∈ e.2,
    lowerChar (Char.ofNat n) = [Char.ofNat n] := by
  decide

theorem lowerChar_moved {r : Run} (hr : r ∈ lowerRuns) {n : Nat} (hn : r.covers n = true) :
    lowerChar (r.moved n) = [r.moved n] := by
  have hmoved := toNat_moved hr hn
  have hrange := lowerRuns_range r hr
  refine lowerChar_of_not_mem (by omega) (not_mem_of_bits movedLetters_apart ?_)
  rw [hmoved]
  exact List.mem_flatMap.mpr ⟨r, hr, Run.mem_spaced hn _⟩

/-- The lower case of a character is settled. -/
theorem lowerChar_of_mem_lowerChar {c d : Char} (h : d ∈ lowerChar c) : lowerChar d = [d] := by
  rcases Nat.lt_or_ge c.toNat 128 with hascii | hbeyond
  · rw [lowerChar_of_ascii hascii] at h
    rw [List.mem_singleton.mp h, lowerChar_toLower hascii]
  · rcases lowerChar_cases hbeyond with ⟨e, he, hc⟩ | ⟨r, hr, hcovers, hc⟩ | hc
    · rw [hc] at h
      obtain ⟨n, hn, rfl⟩ := List.mem_map.mp h
      exact lowerChar_expanded e he n hn
    · rw [hc] at h
      rw [List.mem_singleton.mp h, lowerChar_moved hr hcovers]
    · rw [hc] at h
      rw [List.mem_singleton.mp h, hc]

theorem lowerChar_of_mem_lowerChars {cs : List Char} {d : Char} (h : d ∈ lowerChars cs) :
    lowerChar d = [d] := by
  obtain ⟨c, -, hd⟩ := List.mem_flatMap.mp h
  exact lowerChar_of_mem_lowerChar hd

/-- A text of settled characters is in lower case. -/
theorem lowerChars_of_settled {cs : List Char} (h : ∀ c ∈ cs, lowerChar c = [c]) :
    lowerChars cs = cs := by
  have hsigma : 'Σ' ∉ cs := fun hs => absurd (h _ hs) (by decide)
  rw [lowerChars_of_not_mem hsigma, List.flatMap_congr h, List.flatMap_singleton']

/-- Lower case of lower case is lower case. -/
theorem lowerChars_lowerChars (cs : List Char) : lowerChars (lowerChars cs) = lowerChars cs :=
  lowerChars_of_settled fun _ hd => lowerChar_of_mem_lowerChars hd

end ContractSurvey.Text
