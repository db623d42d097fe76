import ContractSurvey.Comparison.Similarity
import ContractSurvey.Proofs.Number.Order

/-!
# Proofs — Comparison — Similarity

When two contracts have a similarity (`of?_isSome_iff`), that it is between them in this order and
its percentage is a number (`of?_eq_some`), and that the name of a common selector is always found
(`isSome_nameIn?`).
-/

namespace ContractSurvey.Similarity

theorem mem_selectors {p : Profile} {s : Selector} :
    s ∈ p.selectors ↔ ∃ q ∈ p.patterns, q.selector = s := by
  simp [Profile.selectors]

theorem selectors_eq_nil_iff {p : Profile} : p.selectors = [] ↔ p.patterns = [] := by
  simp only [List.eq_nil_iff_forall_not_mem, mem_selectors]
  exact ⟨fun h q hq => h q.selector ⟨q, hq, rfl⟩, fun h _ ⟨q, hq, _⟩ => h q hq⟩

theorem mem_common {a b : Profile} {s : Selector} :
    s ∈ common a b ↔ s ∈ a.selectors ∧ s ∈ b.selectors := by
  simp [common]

theorem mem_union {a b : Profile} {s : Selector} :
    s ∈ union a b ↔ s ∈ a.selectors ∨ s ∈ b.selectors := by
  by_cases h : s ∈ a.selectors <;> simp [union, h]

/-- Looking up the name of a selector that the contract has never fails. -/
theorem isSome_nameIn? {p : Profile} {s : Selector} (h : s ∈ p.selectors) :
    (nameIn? p s).isSome = true := by
  obtain ⟨q, hq, rfl⟩ := mem_selectors.mp h
  simp only [nameIn?, Option.isSome_map, List.find?_isSome, List.mem_reverse]
  exact ⟨q, hq, decide_eq_true rfl⟩

/-- A percentage is a number. -/
theorem isNaN_percentage (part total : Nat) : (percentage part total).isNaN = false := by
  have hfinite : (100 : Binary64).isFinite = true := by decide +kernel
  have hne : (100 : Binary64).magnitude ≠ 0 := by decide +kernel
  have hshare := Binary64.isNaN_mul (Binary64.isNaN_ofRatio part total) hfinite hne
  exact Binary64.isNaN_roundTo hshare

theorem of?_isSome_iff {a b : Profile} :
    (of? a b).isSome = true ↔ ∃ s, s ∈ a.selectors ∨ s ∈ b.selectors := by
  simp only [← mem_union, of?]
  cases h : union a b with
  | nil => simp
  | cons s rest => simp

theorem of?_eq_none_iff {a b : Profile} : of? a b = none ↔ a.selectors = [] ∧ b.selectors = [] := by
  rw [← Option.not_isSome_iff_eq_none, of?_isSome_iff, List.eq_nil_iff_forall_not_mem,
    List.eq_nil_iff_forall_not_mem, ← forall_and]
  simp only [not_exists, not_or]

theorem of?_eq_some {a b : Profile} {s : Similarity} (h : of? a b = some s) :
    s.first = a.address ∧ s.second = b.address ∧ s.percent.isNaN = false := by
  simp only [of?] at h
  split at h
  · cases h
  · cases h
    exact ⟨rfl, rfl, isNaN_percentage _ _⟩

/-- What a similarity tells of the selectors, of which there are some. -/
theorem of?_fields {a b : Profile} {s : Similarity} (h : of? a b = some s) :
    0 < (union a b).length ∧ s.percent = percentage (common a b).length (union a b).length ∧
      s.shared = ((common a b).map (nameIn a)).mergeSort (· ≤ ·) ∧
      s.total = some (.whole (union a b).length) := by
  simp only [of?] at h
  split at h
  · cases h
  · next hne =>
      cases h
      have hpos : 0 < (union a b).length := List.length_pos_iff.mpr (by simpa using hne)
      simp only [hpos, and_self]

theorem between_of_ne {a b : Profile} (h : Text.lower a.address ≠ Text.lower b.address) :
    between a b = .ok (of? a b) :=
  if_neg h

end ContractSurvey.Similarity
