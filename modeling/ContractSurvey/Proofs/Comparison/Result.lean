import ContractSurvey.Comparison.Basic
import ContractSurvey.Proofs.Comparison.Similarity
import ContractSurvey.Proofs.Sequence.Outcome

/-!
# Proofs — Comparison — Result

The result of a comparison.  It fails exactly on a repeated address, up to letter case, and names
the first repetition (`ofProfiles_eq_error_iff`).  Otherwise it is `outcome`
(`ofProfiles_eq_ok_iff`): what is found about every pair once, in the order of the contracts, the
similarities sorted by their height.
-/

namespace ContractSurvey.Comparison

/-! ### Repeated addresses -/

/-- The addresses of some contracts up to letter case. -/
def keys (profiles : List Profile) : List String := profiles.map fun p => Text.lower p.address

@[simp] theorem keys_nil : keys [] = [] := rfl

@[simp] theorem keys_cons (p : Profile) (profiles : List Profile) :
    keys (p :: profiles) = Text.lower p.address :: keys profiles := rfl

/-- The contract is the first one whose address, up to letter case, an earlier one has. -/
def FirstRepetition (profiles : List Profile) (p : Profile) : Prop :=
  ∃ before after, profiles = before ++ p :: after ∧ (keys before).Nodup ∧
    Text.lower p.address ∈ keys before

theorem firstRepeated?_eq_none_iff {seen : List String} {profiles : List Profile} :
    firstRepeated? seen profiles = none ↔
      (keys profiles).Nodup ∧ ∀ k ∈ keys profiles, k ∉ seen := by
  induction profiles generalizing seen with
  | nil => simp [firstRepeated?]
  | cons p rest ih =>
      by_cases h : Text.lower p.address ∈ seen
      · simp [firstRepeated?, h]
      · simp only [firstRepeated?, h, if_false, ih, keys_cons, List.nodup_cons,
          List.forall_mem_cons, not_false_eq_true, true_and]
        constructor
        · rintro ⟨hn, hs⟩
          exact ⟨⟨fun hp => hs _ hp List.mem_cons_self, hn⟩,
            fun k hk hks => hs k hk (List.mem_cons_of_mem _ hks)⟩
        · rintro ⟨⟨hp, hn⟩, hs⟩
          refine ⟨hn, fun k hk hks => ?_⟩
          rcases List.mem_cons.mp hks with rfl | hks
          · exact hp hk
          · exact hs k hk hks

theorem firstRepeated?_eq_some_iff {seen : List String} {profiles : List Profile} {p : Profile} :
    firstRepeated? seen profiles = some p ↔
      ∃ before after, profiles = before ++ p :: after ∧ (keys before).Nodup ∧
        (∀ k ∈ keys before, k ∉ seen) ∧
        (Text.lower p.address ∈ seen ∨ Text.lower p.address ∈ keys before) := by
  induction profiles generalizing seen with
  | nil => simp [firstRepeated?]
  | cons q rest ih =>
      by_cases h : Text.lower q.address ∈ seen
      · simp only [firstRepeated?, h, if_true, Option.some.injEq]
        constructor
        · rintro rfl
          exact ⟨[], rest, rfl, by simp, by simp, .inl h⟩
        · rintro ⟨before, after, e, -, hs, -⟩
          cases before with
          | nil => cases e; rfl
          | cons b before => cases e; exact absurd h (hs _ List.mem_cons_self)
      · simp only [firstRepeated?, h, if_false, ih]
        constructor
        · rintro ⟨before, after, rfl, hn, hs, hp⟩
          refine ⟨q :: before, after, rfl, ?_, ?_, ?_⟩
          · exact List.nodup_cons.mpr ⟨fun hq => hs _ hq List.mem_cons_self, hn⟩
          · rw [keys_cons, List.forall_mem_cons]
            exact ⟨h, fun k hk hks => hs k hk (List.mem_cons_of_mem _ hks)⟩
          · simpa only [keys_cons, List.mem_cons, or_assoc, or_left_comm] using hp
        · rintro ⟨before, after, e, hn, hs, hp⟩
          cases before with
          | nil => cases e; simp [h] at hp
          | cons b before =>
              cases e
              rw [keys_cons, List.nodup_cons] at hn
              rw [keys_cons, List.forall_mem_cons] at hs
              refine ⟨before, after, rfl, hn.2, fun k hk hks => ?_, ?_⟩
              · rcases List.mem_cons.mp hks with rfl | hks
                · exact hn.1 hk
                · exact hs.2 k hk hks
              · simpa only [keys_cons, List.mem_cons, or_assoc, or_left_comm] using hp

/-! ### The outcome -/

theorem forall_mem_pairs {α : Type} {R : α → α → Prop} {xs : List α} :
    (∀ ab ∈ pairs xs, R ab.1 ab.2) ↔ xs.Pairwise R := by
  induction xs with
  | nil => simp [pairs]
  | cons a xs ih =>
      simp only [pairs, List.forall_mem_append, ih, List.pairwise_cons, List.forall_mem_map]

theorem mem_of_mem_pairs {α : Type} {xs : List α} {ab : α × α} (h : ab ∈ pairs xs) :
    ab.1 ∈ xs ∧ ab.2 ∈ xs := by
  have hall : xs.Pairwise fun a b => a ∈ xs ∧ b ∈ xs :=
    List.pairwise_of_forall_mem_list fun _ ha _ hb => ⟨ha, hb⟩
  exact forall_mem_pairs.mpr hall ab h

theorem pairs_eq_nil_of_length_lt_two {α : Type} {xs : List α} (h : xs.length < 2) :
    pairs xs = [] := by
  match xs, h with
  | [], _ => rfl
  | [_], _ => rfl

/-- What a comparison finds about contracts of different addresses. -/
def outcome (threshold : Binary64) (profiles : List Profile) (failed : List String)
    (network : Option String) : Comparison :=
  if profiles.length < 2 then { profiles, status := .notComparable, failed, network }
  else
    { profiles
      similarities :=
        ((pairs profiles).filterMap fun ab => Similarity.of? ab.1 ab.2).mergeSort listedBefore
      relationships := (pairs profiles).filterMap fun ab =>
        Relationship.detect? threshold ab.1 ab.2 (Similarity.of? ab.1 ab.2)
      failed
      network }

section

variable {threshold : Binary64} {profiles : List Profile} {failed : List String}
  {network : Option String}

theorem ofProfiles_of_nodup (h : (keys profiles).Nodup) :
    ofProfiles threshold profiles failed network =
      .ok (outcome threshold profiles failed network) := by
  have hne : ∀ ab ∈ pairs profiles, Text.lower ab.1.address ≠ Text.lower ab.2.address :=
    forall_mem_pairs.mpr (List.pairwise_map.mp h)
  have hfound : (pairs profiles).mapM (fun ab => examine threshold ab.1 ab.2) =
      .ok ((pairs profiles).map fun ab => (Similarity.of? ab.1 ab.2,
        Relationship.detect? threshold ab.1 ab.2 (Similarity.of? ab.1 ab.2))) := by
    refine mapM_eq_ok fun ab hab => ?_
    simp only [examine, Similarity.between_of_ne (hne ab hab)]
    rfl
  rw [ofProfiles, firstRepeated?_eq_none_iff.mpr ⟨h, by simp⟩, outcome]
  by_cases hlen : profiles.length < 2
  · simp only [hlen, if_true]
  · simp only [hlen, if_false]
    show (pairs profiles).mapM (fun ab => examine threshold ab.1 ab.2) >>= _ = _
    simp only [hfound, bind, Except.bind, pure, Except.pure, List.filterMap_map, Function.comp_def]

theorem ofProfiles_eq_error_iff {e : SurveyError} :
    ofProfiles threshold profiles failed network = .error e ↔
      ∃ p, FirstRepetition profiles p ∧ e = .duplicateContract p.address := by
  have hsome (p : Profile) : firstRepeated? [] profiles = some p ↔ FirstRepetition profiles p := by
    simp [firstRepeated?_eq_some_iff, FirstRepetition]
  cases h : firstRepeated? [] profiles with
  | none =>
      rw [ofProfiles_of_nodup (firstRepeated?_eq_none_iff.mp h).1]
      simp [← hsome, h]
  | some p =>
      simp only [ofProfiles, h, Except.error.injEq, ← hsome, Option.some.injEq, exists_eq_left']
      exact eq_comm

theorem exists_firstRepetition_iff :
    (∃ p, FirstRepetition profiles p) ↔ ¬ (keys profiles).Nodup := by
  have hnone : firstRepeated? [] profiles = none ↔ (keys profiles).Nodup := by
    simp [firstRepeated?_eq_none_iff]
  rw [← hnone, ← ne_eq, Option.ne_none_iff_exists']
  simp [firstRepeated?_eq_some_iff, FirstRepetition]

/-- A comparison succeeds exactly on contracts of different addresses, with their outcome. -/
theorem ofProfiles_eq_ok_iff {c : Comparison} :
    ofProfiles threshold profiles failed network = .ok c ↔
      (keys profiles).Nodup ∧ c = outcome threshold profiles failed network := by
  constructor
  · intro h
    by_cases hn : (keys profiles).Nodup
    · rw [ofProfiles_of_nodup hn] at h
      exact ⟨hn, (Except.ok.inj h).symm⟩
    · obtain ⟨p, hp⟩ := exists_firstRepetition_iff.mpr hn
      rw [ofProfiles_eq_error_iff.mpr ⟨p, hp, rfl⟩] at h
      cases h
  · rintro ⟨hn, rfl⟩
    exact ofProfiles_of_nodup hn

theorem outcome_profiles : (outcome threshold profiles failed network).profiles = profiles := by
  unfold outcome
  split <;> rfl

theorem outcome_failed : (outcome threshold profiles failed network).failed = failed := by
  unfold outcome
  split <;> rfl

/-- Two contracts can be compared. -/
theorem isComparable_outcome :
    (outcome threshold profiles failed network).isComparable = true ↔ 2 ≤ profiles.length := by
  unfold outcome
  split
  · next hlen => exact iff_of_false Bool.false_ne_true (Nat.not_le.mpr hlen)
  · next hlen => exact iff_of_true rfl (Nat.not_lt.mp hlen)

theorem outcome_similarities : (outcome threshold profiles failed network).similarities =
    ((pairs profiles).filterMap fun ab => Similarity.of? ab.1 ab.2).mergeSort listedBefore := by
  unfold outcome
  split
  · next h =>
      rw [pairs_eq_nil_of_length_lt_two h]
      simp
  · rfl

theorem outcome_relationships : (outcome threshold profiles failed network).relationships =
    (pairs profiles).filterMap fun ab =>
      Relationship.detect? threshold ab.1 ab.2 (Similarity.of? ab.1 ab.2) := by
  unfold outcome
  split
  · next h => rw [pairs_eq_nil_of_length_lt_two h, List.filterMap_nil]
  · rfl

/-- The percentages of an outcome are numbers. -/
theorem isNaN_of_mem_outcome {s : Similarity}
    (h : s ∈ (outcome threshold profiles failed network).similarities) :
    s.percent.isNaN = false := by
  rw [outcome_similarities, List.mem_mergeSort] at h
  obtain ⟨ab, -, hs⟩ := List.mem_filterMap.mp h
  exact (Similarity.of?_eq_some hs).2.2

end

end ContractSurvey.Comparison
