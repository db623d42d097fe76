import ContractSurvey.Profile.Basic

/-!
# Proofs — Profile — Pattern

Where the patterns of a profile come from.  Every pattern that a code is classified into is that of
a known function (`mem_classify`), so in the profile of a code a selector has the name, category
and standard of the dictionary (`lookup?_of_ofCode`).
-/

namespace ContractSurvey

theorem Signature.firstOfEach_sublist (es : List Signature) : (firstOfEach es).Sublist es := by
  induction es with
  | nil => exact .slnil
  | cons e es ih => exact (List.filter_sublist.trans ih).cons_cons e

/-- There are few known functions. -/
theorem Signature.length_dictionary_lt : dictionary.length < 1024 :=
  Nat.lt_of_le_of_lt (firstOfEach_sublist registered).length_le (by decide)

theorem Signature.lookup?_eq_some {s : Selector} {e : Signature} (h : lookup? s = some e) :
    e ∈ dictionary ∧ e.selector = s :=
  ⟨List.mem_of_find?_eq_some h, by simpa using List.find?_some h⟩

/-- A selector that no category registers is not known. -/
theorem Signature.lookup?_eq_none {s : Selector} (h : ∀ e ∈ registered, e.selector ≠ s) :
    lookup? s = none := by
  refine List.find?_eq_none.mpr fun e he => ?_
  simpa using h e ((firstOfEach_sublist registered).subset he)

theorem Signature.exists_lookup?_iff {s : Selector} :
    (∃ e, lookup? s = some e) ↔ s ∈ dictionary.map (·.selector) := by
  rw [← Option.isSome_iff_exists, lookup?, List.find?_isSome, List.mem_map]
  simp only [decide_eq_true_eq]

namespace Profile

theorem mem_classify {candidates : List Selector} {code : Option String} {q : Pattern} :
    q ∈ Pattern.classify candidates code ↔
      ∃ s ∈ candidates, ∃ e, Signature.lookup? (Text.lower s) = some e ∧
        Pattern.ofSignature (Bytecode.text code) e = q := by
  simp only [Pattern.classify, List.mem_mergeSort, List.mem_map, List.mem_filterMap,
    Sequence.mem_distinct]
  constructor
  · rintro ⟨e, ⟨_, ⟨s, hs, rfl⟩, he⟩, rfl⟩
    exact ⟨s, hs, e, he, rfl⟩
  · rintro ⟨s, hs, e, he, rfl⟩
    exact ⟨e, ⟨_, ⟨s, hs, rfl⟩, he⟩, rfl⟩

/-- A selector is recognised at most once. -/
theorem nodup_selectors_classify (candidates : List Selector) (code : Option String) :
    ((Pattern.classify candidates code).map (·.selector)).Nodup := by
  have hperm := (List.mergeSort_perm
    (((Sequence.distinct (candidates.map Text.lower)).filterMap Signature.lookup?).map
      (Pattern.ofSignature (Bytecode.text code))) Pattern.ranksBefore).map (·.selector)
  refine hperm.nodup_iff.mpr ?_
  rw [List.map_map, List.map_filterMap]
  refine List.Pairwise.filterMap _ (fun s t hne q hq r hr hqr => hne ?_)
    (Sequence.nodup_distinct _)
  obtain ⟨e, he, rfl⟩ := Option.map_eq_some_iff.mp hq
  obtain ⟨e', he', rfl⟩ := Option.map_eq_some_iff.mp hr
  rw [← (Signature.lookup?_eq_some he).2, ← (Signature.lookup?_eq_some he').2]
  exact hqr

/-- The profile of a code keeps the address it is asked for, and its patterns are those that the
code is classified into. -/
theorem ofCode_eq_ok {address : String} {code : Option String} {name : Option String}
    {p : Profile} (h : ofCode address code name = .ok p) :
    Bytecode.isEmpty code = false ∧ p.address = address ∧
      p.patterns = Pattern.classify (Bytecode.selectors code) code := by
  unfold ofCode at h
  split at h
  · cases h
  · next hne =>
      cases h
      exact ⟨by simpa using hne, rfl, rfl⟩

theorem exists_ofCode (code : Option String) (address : String) (name : Option String)
    (h : Bytecode.isEmpty code = false) :
    ∃ p, ofCode address code name = .ok p ∧ p.address = address := by
  simp [ofCode, h]

/-- A pattern of a code's profile is that of a known function. -/
theorem lookup?_of_ofCode {address : String} {code : Option String} {name : Option String}
    {p : Profile} (h : ofCode address code name = .ok p) {q : Pattern} (hq : q ∈ p.patterns) :
    ∃ e, Signature.lookup? q.selector = some e ∧ q.name = e.name ∧ q.category = e.category ∧
      q.standard = e.standard := by
  rw [(ofCode_eq_ok h).2.2] at hq
  obtain ⟨s, -, e, he, rfl⟩ := mem_classify.mp hq
  have hs : e.selector = Text.lower s := (Signature.lookup?_eq_some he).2
  exact ⟨e, by rw [Pattern.ofSignature, hs, he], rfl, rfl, rfl⟩

end Profile

end ContractSurvey
