import ContractSurvey.Text.Occurrence
import Mathlib.Data.List.Perm.Subperm
import Mathlib.Data.List.Range

/-!
# Proofs — Text — Occurrence

What it is to occur several times without overlaps.  `StandsAt` says that a word stands in a text
at a place, and `Apart` that it can stand at two places at once.  The count goes from left to right
and takes the first place that it can, which loses nothing: there are that many places apart from
each other and never more (`le_occurrences_iff`), also for words that overlap themselves and for
the empty one.  So a word is counted more than once exactly if it recurs
(`one_lt_occurrences_iff`).
-/

namespace ContractSurvey.Text

variable {word text : List Char} {c : Char} {i k : Nat} {is : List Nat}

/-! ### Places -/

/-- The word stands in the text at the place. -/
def StandsAt (word text : List Char) (i : Nat) : Prop :=
  ∃ front rear, front ++ (word ++ rear) = text ∧ front.length = i

/-- The word may stand at both places, the second one behind the first. -/
def Apart (word : List Char) (i j : Nat) : Prop := i < j ∧ i + word.length ≤ j

/-- The word stands in the text at two places that do not overlap. -/
def Recurs (word text : List Char) : Prop :=
  ∃ i j, Apart word i j ∧ StandsAt word text i ∧ StandsAt word text j

theorem standsAt_zero : StandsAt word text 0 ↔ word <+: text := by
  constructor
  · rintro ⟨front, rear, rfl, hfront⟩
    rw [List.length_eq_zero_iff.mp hfront]
    exact List.prefix_append _ _
  · rintro ⟨rear, rfl⟩
    exact ⟨[], rear, rfl, rfl⟩

theorem standsAt_succ : StandsAt word (c :: text) (i + 1) ↔ StandsAt word text i := by
  constructor
  · rintro ⟨_ | ⟨d, front⟩, rear, hsplit, hfront⟩
    · cases hfront
    · exact ⟨front, rear, (List.cons.inj hsplit).2, Nat.succ.inj hfront⟩
  · rintro ⟨front, rear, rfl, rfl⟩
    exact ⟨c :: front, rear, rfl, rfl⟩

theorem StandsAt.add_length_le (h : StandsAt word text i) : i + word.length ≤ text.length := by
  obtain ⟨front, rear, rfl, rfl⟩ := h
  simp only [List.length_append]
  omega

theorem exists_standsAt_iff : (∃ i, StandsAt word text i) ↔ word <:+: text := by
  constructor
  · rintro ⟨_, front, rear, hsplit, -⟩
    exact ⟨front, rear, by rw [List.append_assoc, hsplit]⟩
  · rintro ⟨front, rear, hsplit⟩
    exact ⟨_, front, rear, by rw [← List.append_assoc, hsplit], rfl⟩

theorem standsAt_nil : StandsAt [] text i ↔ i ≤ text.length := by
  refine ⟨fun h => h.add_length_le, fun h => ⟨text.take i, text.drop i, ?_, ?_⟩⟩
  · rw [List.nil_append, List.take_append_drop]
  · rw [List.length_take, Nat.min_eq_left h]

/-! ### Places apart from each other -/

/-- Places of the word from `k` on, none of them inside the one before. -/
structure Places (word text : List Char) (k : Nat) (is : List Nat) : Prop where
  apart : is.Pairwise (Apart word)
  stands : ∀ i ∈ is, StandsAt word text i
  le : ∀ i ∈ is, k ≤ i

theorem Places.nil : Places word text k [] := ⟨.nil, by simp, by simp⟩

theorem Places.mono {k' : Nat} (h : Places word text k is) (hk : ∀ i ∈ is, k' ≤ i) :
    Places word text k' is := ⟨h.apart, h.stands, hk⟩

theorem places_map_succ :
    Places word (c :: text) (k + 1) (is.map (· + 1)) ↔ Places word text k is := by
  have hsucc (i j : Nat) : Apart word (i + 1) (j + 1) ↔ Apart word i j := by
    unfold Apart
    omega
  constructor
  · rintro ⟨hapart, hstands, hle⟩
    simp only [List.pairwise_map, hsucc] at hapart
    simp only [List.forall_mem_map, standsAt_succ, Nat.add_le_add_iff_right] at hstands hle
    exact ⟨hapart, hstands, hle⟩
  · rintro ⟨hapart, hstands, hle⟩
    refine ⟨?_, ?_, ?_⟩
    · simpa only [List.pairwise_map, hsucc] using hapart
    · simpa only [List.forall_mem_map, standsAt_succ] using hstands
    · simpa only [List.forall_mem_map, Nat.add_le_add_iff_right] using hle

/-- Places behind the first character are places of the text that it stands before. -/
theorem Places.exists_map_succ (h : Places word (c :: text) (k + 1) is) :
    ∃ js, is = js.map (· + 1) ∧ Places word text k js := by
  have hback : ∀ i ∈ is, i = i - 1 + 1 := fun i hi => by
    have := h.le i hi
    omega
  have his : is = (is.map (· - 1)).map (· + 1) := by
    rw [List.map_map]
    exact (List.map_id is).symm.trans (List.map_congr_left hback)
  exact ⟨_, his, places_map_succ.mp (his ▸ h)⟩

/-- At the front of a text a word stands before all places that it is apart from. -/
theorem Places.cons_zero (hfits : word <+: text) (hk : 0 < k) (hword : word.length ≤ k)
    (h : Places word text k is) : Places word text 0 (0 :: is) where
  apart := List.pairwise_cons.mpr ⟨fun i hi => by
    have := h.le i hi
    unfold Apart
    omega, h.apart⟩
  stands := List.forall_mem_cons.mpr ⟨standsAt_zero.mpr hfits, h.stands⟩
  le := fun _ _ => Nat.zero_le _

/-- Behind the first place all others leave room for the word. -/
theorem Places.tail (h : Places word text k (i :: is)) : Places word text (i + word.length) is where
  apart := (List.pairwise_cons.mp h.apart).2
  stands := (List.forall_mem_cons.mp h.stands).2
  le := fun j hj => ((List.pairwise_cons.mp h.apart).1 j hj).2

/-! ### The count -/

/-- There are no more places apart from each other than are counted: the first place that is taken
is in the way of no more than one of them. -/
theorem Places.length_le (hword : word ≠ []) (h : Places word text k is) :
    is.length ≤ countApart word k text := by
  have hlength : 0 < word.length := List.length_pos_iff.mpr hword
  fun_induction countApart word k text generalizing is with
  | case1 k =>
      cases is with
      | nil => exact Nat.le_refl _
      | cons i is =>
          have := (h.stands i List.mem_cons_self).add_length_le
          simp only [List.length_nil] at this
          omega
  | case2 k c rest ih =>
      obtain ⟨js, rfl, hjs⟩ := h.exists_map_succ
      rw [List.length_map]
      exact ih hjs
  | case3 c rest hfits ih =>
      cases is with
      | nil => exact Nat.zero_le _
      | cons i is =>
          have hrest : Places word (c :: rest) (word.length - 1 + 1) is :=
            h.tail.mono fun j hj => by
              have := h.tail.le j hj
              omega
          obtain ⟨js, rfl, hjs⟩ := hrest.exists_map_succ
          have := ih hjs
          rw [List.length_cons, List.length_map]
          omega
  | case4 c rest hfits ih =>
      have hrest : Places word (c :: rest) (0 + 1) is := h.mono fun i hi => by
        rw [Nat.zero_add, Nat.one_le_iff_ne_zero]
        rintro rfl
        exact hfits (List.isPrefixOf_iff_prefix.mpr (standsAt_zero.mp (h.stands 0 hi)))
      obtain ⟨js, rfl, hjs⟩ := hrest.exists_map_succ
      rw [List.length_map]
      exact ih hjs

/-- What is counted are places apart from each other. -/
theorem exists_places (hword : word ≠ []) (k : Nat) (text : List Char) :
    ∃ is, Places word text k is ∧ is.length = countApart word k text := by
  have hlength : 0 < word.length := List.length_pos_iff.mpr hword
  fun_induction countApart word k text with
  | case1 k => exact ⟨[], .nil, rfl⟩
  | case2 k c rest ih =>
      obtain ⟨is, his, hcount⟩ := ih
      exact ⟨is.map (· + 1), places_map_succ.mpr his, by rw [List.length_map, hcount]⟩
  | case3 c rest hfits ih =>
      obtain ⟨is, his, hcount⟩ := ih
      refine ⟨0 :: is.map (· + 1), ?_, ?_⟩
      · exact (places_map_succ.mpr his).cons_zero (List.isPrefixOf_iff_prefix.mp hfits)
          (Nat.succ_pos _) (by omega)
      · rw [List.length_cons, List.length_map, hcount, Nat.add_comm]
  | case4 c rest hfits ih =>
      obtain ⟨is, his, hcount⟩ := ih
      exact ⟨is.map (· + 1), (places_map_succ.mpr his).mono fun _ _ => Nat.zero_le _,
        by rw [List.length_map, hcount]⟩

/-- The empty word stands before every character and at the end. -/
theorem places_nil_iff : Places [] text 0 is ↔ is.Pairwise (· < ·) ∧ ∀ i ∈ is, i ≤ text.length := by
  have hapart : Apart [] = (· < ·) := by
    funext i j
    exact propext (and_iff_left_of_imp Nat.le_of_lt)
  constructor
  · rintro ⟨hpairwise, hstands, -⟩
    rw [hapart] at hpairwise
    exact ⟨hpairwise, fun i hi => standsAt_nil.mp (hstands i hi)⟩
  · rintro ⟨hpairwise, hle⟩
    exact ⟨hapart ▸ hpairwise, fun i hi => standsAt_nil.mpr (hle i hi), fun i _ => Nat.zero_le i⟩

theorem Places.length_le_occurrences (h : Places word text 0 is) :
    is.length ≤ occurrences word text := by
  rw [occurrences]
  split
  · next hempty =>
      rw [List.isEmpty_iff.mp hempty, places_nil_iff] at h
      have hsubset : is ⊆ List.range (text.length + 1) := fun i hi =>
        List.mem_range.mpr (Nat.lt_succ_of_le (h.2 i hi))
      simpa using (List.subperm_of_subset (h.1.imp Nat.ne_of_lt) hsubset).length_le
  · next hne => exact h.length_le (by simpa using hne)

theorem exists_places_occurrences (word text : List Char) :
    ∃ is, Places word text 0 is ∧ is.length = occurrences word text := by
  rw [occurrences]
  split
  · next hempty =>
      refine ⟨List.range (text.length + 1), ?_, List.length_range⟩
      rw [List.isEmpty_iff.mp hempty, places_nil_iff]
      exact ⟨List.pairwise_lt_range, fun i hi => Nat.le_of_lt_succ (List.mem_range.mp hi)⟩
  · next hne => exact exists_places (by simpa using hne) 0 text

/-- **Occurrences without overlaps.**  A word occurs at least `n` times exactly if it stands at `n`
places that are apart from each other. -/
theorem le_occurrences_iff {n : Nat} : n ≤ occurrences word text ↔
    ∃ is : List Nat, is.length = n ∧ is.Pairwise (Apart word) ∧ ∀ i ∈ is, StandsAt word text i := by
  constructor
  · intro h
    obtain ⟨is, his, hcount⟩ := exists_places_occurrences word text
    refine ⟨is.take n, ?_, his.apart.sublist (List.take_sublist n is), fun i hi => ?_⟩
    · rw [List.length_take, hcount, Nat.min_eq_left h]
    · exact his.stands i (List.mem_of_mem_take hi)
  · rintro ⟨is, rfl, hapart, hstands⟩
    exact Places.length_le_occurrences ⟨hapart, hstands, fun i _ => Nat.zero_le i⟩

theorem one_lt_occurrences_iff : 1 < occurrences word text ↔ Recurs word text := by
  rw [← Nat.succ_le_iff, le_occurrences_iff]
  constructor
  · rintro ⟨is, hlength, hapart, hstands⟩
    obtain ⟨i, j, rfl⟩ := List.length_eq_two.mp hlength
    exact ⟨i, j, List.pairwise_pair.mp hapart, hstands i (by simp), hstands j (by simp)⟩
  · rintro ⟨i, j, hapart, hi, hj⟩
    exact ⟨[i, j], rfl, List.pairwise_pair.mpr hapart, by simp [hi, hj]⟩

instance (word text : List Char) : Decidable (Recurs word text) :=
  decidable_of_iff _ one_lt_occurrences_iff

/-- Digits that overlap themselves recur only where there is room for them twice. -/
example : ¬ Recurs "4e4e".toList "004e4e4e".toList ∧ Recurs "4e4e".toList "4e4e4e4e".toList := by
  decide

end ContractSurvey.Text
