import ContractSurvey.Proofs.Json.Printer
import ContractSurvey.Proofs.Number.Text
import ContractSurvey.Report.Data

/-!
# Proofs — Report — Parts

What decides whether a report has a text and can be read back: the numbers in it and the levels to
which it is nested.  What is asked of the numbers of a comparison (`Comparison.Passes`), whether
that they are finite or that they are short, holds of the numbers of the values that are made from
its parts.  These have at most three levels (`Profile.depth_fieldsWith_le`).
-/

namespace ContractSurvey

/-! ### The numbers of a comparison -/

/-- The numbers of a profile pass a test. -/
structure Profile.Passes (t : NumberTest) (p : Profile) : Prop where
  size : ∀ q ∈ p.size, q.passes t = true
  candidates : ∀ q ∈ p.candidates, q.passes t = true
  patterns : ∀ f ∈ p.patterns, t.measured f.confidence = true
  standards : ∀ s ∈ p.standards, ∀ q ∈ s.percent, q.passes t = true
  complexity : ∀ q ∈ p.complexity, q.passes t = true

namespace Comparison

/-- The doubles of a comparison are finite, and the mean of its sizes where one of them is
measured. -/
structure IsFinite (c : Comparison) : Prop where
  profiles : ∀ p ∈ c.profiles, p.Passes .finite
  similarities : ∀ s ∈ c.similarities,
    s.percent.isFinite = true ∧ ∀ q ∈ s.total, q.passes .finite = true
  relationships : ∀ r ∈ c.relationships, r.confidence.isFinite = true
  mean : (∃ p ∈ c.profiles, ∃ q ∈ p.size, q.isMeasured = true) →
    ∀ x, Chart.averageSize c.profiles = .ok x → x.isFinite = true

/-- The whole numbers of a comparison are short, and so are the lengths of its lists. -/
structure IsShort (c : Comparison) : Prop where
  profiles : ∀ p ∈ c.profiles, p.Passes .short
  similarities : ∀ s ∈ c.similarities, ∀ q ∈ s.total, q.passes .short = true
  lengths : Whole.IsShort c.profiles.length ∧ Whole.IsShort c.similarities.length ∧
    Whole.IsShort c.relationships.length

/-- The numbers of a comparison pass a test, with those that a report adds. -/
structure Passes (t : NumberTest) (c : Comparison) : Prop where
  profiles : ∀ p ∈ c.profiles, p.Passes t
  similarities : ∀ s ∈ c.similarities,
    t.measured s.percent = true ∧ ∀ q ∈ s.total, q.passes t = true
  relationships : ∀ r ∈ c.relationships, t.measured r.confidence = true
  mean : ∀ x, Chart.averageSize c.profiles = .ok x → t.measured x = true
  profileCount : t.whole c.profiles.length = true
  similarityCount : t.whole c.similarities.length = true
  relationshipCount : t.whole c.relationships.length = true
  proxyCount : t.whole (Report.proxyCount c) = true

end Comparison

/-! ### The numbers of values -/

namespace Json

variable {t : NumberTest}

@[simp] theorem passes_ofText? (s : Option String) : (ofText? s).passes t = true := by
  cases s <;> simp [ofText?, passes]

@[simp] theorem passes_ofTexts (ss : List String) : (ofTexts ss).passes t = true := by
  simp [ofTexts, passes, itemsPass_iff]

theorem passes_ofQuantity? {q : Option Quantity} (h : ∀ a ∈ q, a.passes t = true) :
    (ofQuantity? q).passes t = true := by
  cases q with
  | none => simp [ofQuantity?, passes]
  | some q =>
      have hq := h q rfl
      cases q with
      | whole n | measured x =>
          rw [ofQuantity?, ofQuantity, passes]
          exact hq

end Json

variable {t : NumberTest}

theorem Pattern.passes_toJson {f : Pattern} (h : t.measured f.confidence = true) :
    f.toJson.passes t = true := by
  simp [toJson, Json.passes, Json.fieldsPass, h]

theorem Compliance.passes_toJson {s : Compliance} (h : ∀ q ∈ s.percent, q.passes t = true) :
    s.toJson.passes t = true := by
  simp [toJson, Json.passes, Json.fieldsPass, Json.passes_ofQuantity? h]

theorem Similarity.passes_toJson {s : Similarity} (h : t.measured s.percent = true)
    (ht : ∀ q ∈ s.total, q.passes t = true) : s.toJson.passes t = true := by
  simp [toJson, Json.passes, Json.fieldsPass, h, Json.passes_ofQuantity? ht]

theorem Relationship.passes_toJson {r : Relationship} (h : t.measured r.confidence = true) :
    r.toJson.passes t = true := by
  simp [toJson, Json.passes, Json.fieldsPass, h]

theorem Profile.passes_fieldsWith {p : Profile} (h : p.Passes t) (level : ComplexityLevel) :
    Json.fieldsPass t (p.fieldsWith level) = true := by
  have hpatterns : Json.itemsPass t (p.patterns.map (·.toJson)) = true := by
    simpa [Json.itemsPass_iff] using fun f hf => Pattern.passes_toJson (h.patterns f hf)
  have hstandards : Json.itemsPass t (p.standards.map (·.toJson)) = true := by
    simpa [Json.itemsPass_iff] using fun s hs => Compliance.passes_toJson (h.standards s hs)
  simp [fieldsWith, Trailer.json, Json.passes, Json.fieldsPass, hpatterns, hstandards,
    Json.passes_ofQuantity? h.size, Json.passes_ofQuantity? h.candidates,
    Json.passes_ofQuantity? h.complexity]

/-! ### The levels of values -/

namespace Json

@[simp] theorem depth_ofText? (s : Option String) : (ofText? s).depth = 0 := by
  cases s <;> simp [ofText?, depth]

@[simp] theorem depth_ofQuantity? (q : Option Quantity) : (ofQuantity? q).depth = 0 := by
  rcases q with _ | _ | _ <;> simp [ofQuantity?, ofQuantity, depth]

theorem depth_array_le_iff {vs : List Json} {k : Nat} :
    (array vs).depth ≤ k + 1 ↔ ∀ v ∈ vs, v.depth ≤ k := by
  rw [depth, Nat.add_le_add_iff_right, itemsDepth_le_iff]

theorem depth_object_le_iff {fs : List (String × Json)} {k : Nat} :
    (object fs).depth ≤ k + 1 ↔ ∀ f ∈ fs, f.2.depth ≤ k := by
  rw [depth, Nat.add_le_add_iff_right, fieldsDepth_le_iff]

theorem depth_ofTexts_le (ss : List String) : (ofTexts ss).depth ≤ 1 := by
  refine depth_array_le_iff.mpr fun v hv => ?_
  obtain ⟨s, -, rfl⟩ := List.mem_map.mp hv
  rw [depth]

end Json

theorem Pattern.depth_toJson_le (f : Pattern) : f.toJson.depth ≤ 1 :=
  Json.depth_object_le_iff.mpr (by simp [Json.depth])

theorem Compliance.depth_toJson_le (s : Compliance) : s.toJson.depth ≤ 2 :=
  Json.depth_object_le_iff.mpr (by simp [Json.depth, Json.depth_ofTexts_le])

theorem Similarity.depth_toJson_le (s : Similarity) : s.toJson.depth ≤ 2 :=
  Json.depth_object_le_iff.mpr (by simp [Json.depth, Json.depth_ofTexts_le])

theorem Relationship.depth_toJson_le (r : Relationship) : r.toJson.depth ≤ 2 :=
  Json.depth_object_le_iff.mpr (by simp [Json.depth, Json.depth_ofTexts_le])

/-- The deepest fields of a profile are the lists of its standards. -/
theorem Profile.depth_fieldsWith_le (p : Profile) (level : ComplexityLevel) :
    ∀ f ∈ p.fieldsWith level, f.2.depth ≤ 3 := by
  have htexts (ss : List String) : (Json.ofTexts ss).depth ≤ 3 :=
    (Json.depth_ofTexts_le ss).trans (by decide)
  have hpatterns : (Json.array (p.patterns.map (·.toJson))).depth ≤ 3 :=
    Json.depth_array_le_iff.mpr
      (by simpa using fun f _ => (Pattern.depth_toJson_le f).trans (by decide))
  have hstandards : (Json.array (p.standards.map (·.toJson))).depth ≤ 3 :=
    Json.depth_array_le_iff.mpr (by simpa using fun s _ => Compliance.depth_toJson_le s)
  have hobject {fs : List (String × Json)} (h : ∀ f ∈ fs, f.2.depth ≤ 2) :
      (Json.object fs).depth ≤ 3 := Json.depth_object_le_iff.mpr h
  simp only [fieldsWith, List.forall_mem_cons]
  refine ⟨by simp [Json.depth], by simp, by simp, by simp, by simp, hpatterns, htexts _,
    hstandards, hobject ?_, hobject ?_, hobject ?_, htexts _, htexts _, hobject ?_, by simp⟩
  · simpa [Json.depth] using (Json.depth_ofTexts_le _).trans (by decide)
  · simp [Json.depth]
  · simp [Json.depth]
  · simp [Json.depth]

end ContractSurvey
