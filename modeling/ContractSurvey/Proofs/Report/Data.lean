import ContractSurvey.Proofs.Report.Parts
import ContractSurvey.Proofs.Report.Table
import ContractSurvey.Proofs.Sequence.Ledger

/-!
# Proofs — Report — Data

The report as JSON text is read back as the value that it was written from (`read_json`).  For that
the doubles in it must be finite: those of the comparison, those of the notes handed in, and the
mean of the sizes.  A mean of whole sizes is finite or refused (`isFinite_averageSize`); measured
sizes may have an infinite mean though each of them is finite.  There is a text only if the whole
numbers are short and the notes are not nested too deep (`passes_data`, `depth_data_le`).

The notes handed in replace those of the report in place, and the new ones follow.
-/

namespace ContractSurvey

/-! ### The mean of the sizes -/

/-- A total without measured terms is whole. -/
theorem Quantity.foldlM_plus_eq_ok {terms : List (Option Quantity)} {m : Int} {q : Quantity}
    (hterms : ∀ t ∈ terms, ∀ a ∈ t, a.isMeasured = false)
    (h : terms.foldlM plus (whole m) = .ok q) : ∃ n, q = whole n := by
  induction terms generalizing m with
  | nil =>
      cases h
      exact ⟨m, rfl⟩
  | cons t terms ih =>
      rw [List.forall_mem_cons] at hterms
      match t, hterms.1 with
      | none, _ => cases h
      | some (.whole n), _ => exact ih (m := m + n) hterms.2 h
      | some (.measured x), hx => exact absurd (hx _ rfl) (by simp [isMeasured])

/-- A sum of whole numbers of bounded size. -/
theorem natAbs_foldl_add_le {ns : List Int} {b : Nat} (h : ∀ n ∈ ns, n.natAbs ≤ b) (m : Int) :
    (ns.foldl (fun sum n => sum + n) m).natAbs ≤ m.natAbs + b * ns.length := by
  induction ns generalizing m with
  | nil => simp
  | cons n ns ih =>
      rw [List.forall_mem_cons] at h
      have hrest := ih h.2 (m + n)
      rw [List.foldl_cons, List.length_cons, Nat.mul_succ]
      omega

namespace Chart

/-- The mean of whole sizes is finite. -/
theorem isFinite_averageSize {ps : List Profile} {x : Binary64}
    (hwhole : ∀ p ∈ ps, ∀ q ∈ p.size, q.isMeasured = false) (h : averageSize ps = .ok x) :
    x.isFinite = true := by
  unfold averageSize at h
  split at h
  · cases h
    exact Binary64.isFinite_nearest_mul_one (k := 0) _ (by decide) (n := 0) (d := 1) (by decide)
  · simp only [bind, bind_eq_ok_iff, pure, Except.pure, Except.ok.injEq] at h
    obtain ⟨total, htotal, mean, hmean, rfl⟩ := h
    obtain ⟨n, rfl⟩ := Quantity.foldlM_plus_eq_ok (by simpa using hwhole) htotal
    have hquotient : Binary64.quotient n ps.length = .ok mean := by
      rw [Quantity.quotient, Int.toNat_natCast] at hmean
      cases hq : Binary64.quotient n ps.length with
      | error e =>
          rw [hq] at hmean
          cases hmean
      | ok y =>
          rw [hq] at hmean
          cases hmean
          rfl
    exact Binary64.isFinite_roundTo 2 (Binary64.isFinite_of_quotient hquotient)

theorem exists_wholeSizes {ps : List Profile} {P : Int → Prop}
    (h : ∀ p ∈ ps, ∃ n : Int, P n ∧ p.size = some (.whole n)) :
    ∃ ns : List Int, (∀ n ∈ ns, P n) ∧ ps.map (·.size) = ns.map fun n => some (.whole n) := by
  induction ps with
  | nil => exact ⟨[], by simp⟩
  | cons p ps ih =>
      rw [List.forall_mem_cons] at h
      obtain ⟨⟨n, hn, hsize⟩, hrest⟩ := h
      obtain ⟨ns, hns, hsizes⟩ := ih hrest
      exact ⟨n :: ns, List.forall_mem_cons.mpr ⟨hn, hns⟩, by simp [hsize, hsizes]⟩

/-- Whole sizes below half the range of the doubles have a mean. -/
theorem exists_averageSize {ps : List Profile} {k : Nat} (hk : k ≤ 1023)
    (h : ∀ p ∈ ps, ∃ n : Int, n.natAbs < 2 ^ k ∧ p.size = some (.whole n)) :
    ∃ x, averageSize ps = .ok x := by
  unfold averageSize
  split
  · exact ⟨0, rfl⟩
  · next hne =>
      obtain ⟨ns, hns, hsizes⟩ := exists_wholeSizes h
      have hlength : ps.length = ns.length := by simpa using congrArg List.length hsizes
      have hpos : 0 < ns.length := by
        rw [← hlength]
        exact List.length_pos_of_ne_nil (by simpa using hne)
      have hsum : (ns.foldl (fun sum n => sum + n) 0).natAbs < 2 ^ k * ns.length := by
        calc (ns.foldl (fun sum n => sum + n) 0).natAbs
            ≤ (0 : Int).natAbs + (2 ^ k - 1) * ns.length :=
              natAbs_foldl_add_le (fun n hn => Nat.le_sub_one_of_lt (hns n hn)) 0
          _ = (2 ^ k - 1) * ns.length := Nat.zero_add _
          _ < 2 ^ k * ns.length :=
            Nat.mul_lt_mul_of_pos_right (Nat.sub_one_lt (Nat.ne_of_gt (Nat.two_pow_pos k))) hpos
      obtain ⟨x, hx⟩ := Binary64.exists_quotient hk hsum
      have htotal : totalSize ps = .ok (.whole (ns.foldl (fun sum n => sum + n) 0)) := by
        rw [totalSize, hsizes, Quantity.total_whole]
      have hmean : Quantity.quotient (.whole (ns.foldl (fun sum n => sum + n) 0))
          (.whole ps.length) = .ok x := by
        rw [Quantity.quotient, Int.toNat_natCast, hlength, hx]
        rfl
      refine ⟨x.roundTo 2, ?_⟩
      simp only [bind, bind_eq_ok_iff, pure, Except.pure, Except.ok.injEq]
      exact ⟨_, htotal, x, hmean, rfl⟩

end Chart

namespace Report

variable {t : NumberTest}

/-! ### Notes -/

/-- The notes of a report: those of its own in their places, with the value handed in where there
is one, then the new ones. -/
theorem notes_eq (c : Comparison) (now : Moment) {given : List (String × Json)}
    (h : (given.map Prod.fst).Nodup) :
    notes c now given =
      (ownNotes c now).map (fun f => (f.1, (Ledger.get? f.1 given).getD f.2)) ++
        given.filter (·.1 ∉ (ownNotes c now).keys) := by
  have hown : (ownNotes c now).keys.Nodup := by
    simp [ownNotes, Ledger.keys]
  exact Ledger.foldl_put hown h

theorem passes_notes {c : Comparison} {now : Moment} {given : List (String × Json)}
    (hkeys : (given.map Prod.fst).Nodup) (hcount : t.whole c.profiles.length = true)
    (hgiven : ∀ f ∈ given, f.2.passes t = true) :
    Json.fieldsPass t (notes c now given) = true := by
  have hown : Json.fieldsPass t (ownNotes c now) = true := by
    simp [ownNotes, Json.fieldsPass, Json.passes, hcount]
  rw [notes_eq c now hkeys, Json.fieldsPass_iff]
  intro f hf
  rcases List.mem_append.mp hf with hf | hf
  · obtain ⟨g, hg, rfl⟩ := List.mem_map.mp hf
    cases hget : Ledger.get? g.1 given with
    | none => exact Json.fieldsPass_iff.mp hown g hg
    | some v => exact hgiven _ (Ledger.mem_of_get?_eq_some hget)
  · exact hgiven f (List.mem_of_mem_filter hf)

theorem depth_notes_le {c : Comparison} {now : Moment} {given : List (String × Json)} {k : Nat}
    (hkeys : (given.map Prod.fst).Nodup) (hgiven : ∀ f ∈ given, f.2.depth ≤ k) :
    ∀ f ∈ notes c now given, f.2.depth ≤ k := by
  rw [notes_eq c now hkeys]
  intro f hf
  rcases List.mem_append.mp hf with hf | hf
  · obtain ⟨g, hg, rfl⟩ := List.mem_map.mp hf
    have hown : g.2.depth = 0 := by
      simp only [ownNotes, List.mem_cons, List.not_mem_nil, or_false] at hg
      rcases hg with rfl | rfl | rfl | rfl | rfl <;> rw [Json.depth]
    cases hget : Ledger.get? g.1 given with
    | none => exact hown.trans_le (Nat.zero_le k)
    | some v => exact hgiven _ (Ledger.mem_of_get?_eq_some hget)
  · exact hgiven f (List.mem_of_mem_filter hf)

/-! ### The whole report -/

/-- The value of a report, from its figures and its contracts. -/
def whole (c : Comparison) (now : Moment) (given : List (String × Json)) (summary : Json)
    (contracts : List Json) : Json :=
  .object
    [("metadata", .object (notes c now given)),
     ("status", .text c.status.label),
     ("summary", summary),
     ("contracts", .array contracts),
     ("similarities", .array (c.similarities.map (·.toJson))),
     ("relationships", .array (c.relationships.map (·.toJson))),
     ("failed_addresses", .ofTexts c.failed)]

theorem data_eq_ok_iff {c : Comparison} {now : Moment} {given : List (String × Json)} {d : Json} :
    data c now given = .ok d ↔ ∃ summary contracts, figures c = .ok summary ∧
      List.Forall₂ (fun p v => contractJson p = .ok v) c.profiles contracts ∧
      d = whole c now given summary contracts := by
  simp only [data, bind, bind_eq_ok_iff, pure, Except.pure, Except.ok.injEq, mapM_eq_ok_iff]
  constructor
  · rintro ⟨summary, hsummary, contracts, hcontracts, rfl⟩
    exact ⟨summary, contracts, hsummary, hcontracts, rfl⟩
  · rintro ⟨summary, contracts, hsummary, hcontracts, rfl⟩
    exact ⟨summary, hsummary, contracts, hcontracts, rfl⟩

theorem passes_figures {c : Comparison} (hc : c.Passes t) {summary : Json}
    (h : figures c = .ok summary) : summary.passes t = true := by
  rw [figures, map_eq_ok_iff] at h
  obtain ⟨x, hx, rfl⟩ := h
  simp [Json.passes, Json.fieldsPass, hc.mean x hx, hc.profileCount, hc.similarityCount,
    hc.relationshipCount, hc.proxyCount]

theorem contractJson_eq_ok_iff {p : Profile} {v : Json} :
    contractJson p = .ok v ↔ ∃ score size, p.complexity = some score ∧
      (Quantity.stated p.size).bind bytesText = .ok size ∧
      v = .object (p.fieldsWith (.ofScore score) ++ [("size_formatted", .text size)]) := by
  simp only [contractJson, bind, bind_eq_ok_iff, pure, Except.pure, Except.ok.injEq,
    Profile.fields, map_eq_ok_iff, Profile.level, Quantity.stated_eq_ok_iff]
  constructor
  · rintro ⟨_, ⟨_, ⟨score, hscore, rfl⟩, rfl⟩, size, hsize, rfl⟩
    exact ⟨score, size, hscore, hsize, rfl⟩
  · rintro ⟨score, size, hscore, hsize, rfl⟩
    exact ⟨_, ⟨_, ⟨score, hscore, rfl⟩, rfl⟩, size, hsize, rfl⟩

theorem passes_contractJson {p : Profile} (hp : p.Passes t) {v : Json}
    (h : contractJson p = .ok v) : v.passes t = true := by
  obtain ⟨score, size, -, -, rfl⟩ := contractJson_eq_ok_iff.mp h
  have hfields := Json.fieldsPass_iff.mp (Profile.passes_fieldsWith hp (.ofScore score))
  rw [Json.passes, Json.fieldsPass_iff]
  intro f hf
  rcases List.mem_append.mp hf with hf | hf
  · exact hfields f hf
  · rw [List.mem_singleton.mp hf, Json.passes]

/-- What is asked of the numbers of a comparison holds of its report. -/
theorem passes_data {c : Comparison} {now : Moment} {given : List (String × Json)}
    (hc : c.Passes t) (hgiven : ∀ f ∈ given, f.2.passes t = true)
    (hkeys : (given.map Prod.fst).Nodup) {d : Json} (h : data c now given = .ok d) :
    d.passes t = true := by
  obtain ⟨summary, contracts, hsummary, hcontracts, rfl⟩ := data_eq_ok_iff.mp h
  have hnotes : Json.fieldsPass t (notes c now given) = true :=
    passes_notes hkeys hc.profileCount hgiven
  have hall : Json.itemsPass t contracts = true := by
    have hboth := (List.forall₂_and_left _ _).mpr ⟨hc.profiles, hcontracts⟩
    exact Json.itemsPass_iff.mpr
      (forall_mem_of_forall₂ (hboth.imp fun _ _ h => passes_contractJson h.1 h.2))
  have hsimilarities : Json.itemsPass t (c.similarities.map (·.toJson)) = true := by
    simpa [Json.itemsPass_iff] using fun s hs =>
      Similarity.passes_toJson (hc.similarities s hs).1 (hc.similarities s hs).2
  have hrelationships : Json.itemsPass t (c.relationships.map (·.toJson)) = true := by
    simpa [Json.itemsPass_iff] using fun r hr =>
      Relationship.passes_toJson (hc.relationships r hr)
  simp [whole, Json.passes, Json.fieldsPass, hnotes, passes_figures hc hsummary, hall,
    hsimilarities, hrelationships]

theorem passes_finite {c : Comparison} (hc : c.IsFinite) : c.Passes .finite where
  profiles := hc.profiles
  similarities := hc.similarities
  relationships := hc.relationships
  mean x hx := by
    by_cases hmeasured : ∃ p ∈ c.profiles, ∃ q ∈ p.size, q.isMeasured = true
    · exact hc.mean hmeasured x hx
    · refine Chart.isFinite_averageSize (fun p hp q hq => ?_) hx
      exact Bool.eq_false_iff.mpr fun hq' => hmeasured ⟨p, hp, q, hq, hq'⟩
  profileCount := rfl
  similarityCount := rfl
  relationshipCount := rfl
  proxyCount := rfl

theorem passes_short {c : Comparison} (hc : c.IsShort) : c.Passes .short where
  profiles := hc.profiles
  similarities s hs := ⟨rfl, hc.similarities s hs⟩
  relationships _ _ := rfl
  mean _ _ := rfl
  profileCount := decide_eq_true hc.lengths.1
  similarityCount := decide_eq_true hc.lengths.2.1
  relationshipCount := decide_eq_true hc.lengths.2.2
  proxyCount := decide_eq_true (hc.lengths.1.of_natAbs_le (List.length_filter_le _ _))

theorem depth_figures_le {c : Comparison} {summary : Json} (h : figures c = .ok summary) :
    summary.depth ≤ 2 := by
  rw [figures, map_eq_ok_iff] at h
  obtain ⟨x, hx, rfl⟩ := h
  exact Json.depth_object_le_iff.mpr (by simp [Json.depth, Json.depth_ofTexts_le])

theorem depth_contractJson_le {p : Profile} {v : Json} (h : contractJson p = .ok v) :
    v.depth ≤ 4 := by
  obtain ⟨score, size, -, -, rfl⟩ := contractJson_eq_ok_iff.mp h
  refine Json.depth_object_le_iff.mpr fun f hf => ?_
  rcases List.mem_append.mp hf with hf | hf
  · exact Profile.depth_fieldsWith_le p _ f hf
  · rw [List.mem_singleton.mp hf, Json.depth]
    exact Nat.zero_le 3

/-- A report has six levels, unless its notes have more. -/
theorem depth_data_le {c : Comparison} {now : Moment} {given : List (String × Json)} {room : Nat}
    (hroom : 6 ≤ room) (hgiven : ∀ f ∈ given, f.2.depth + 2 ≤ room)
    (hkeys : (given.map Prod.fst).Nodup) {d : Json} (h : data c now given = .ok d) :
    d.depth ≤ room := by
  obtain ⟨summary, contracts, hsummary, hcontracts, rfl⟩ := data_eq_ok_iff.mp h
  obtain ⟨k, rfl⟩ : ∃ k, room = k + 2 := ⟨room - 2, by omega⟩
  have hnotes : (Json.object (notes c now given)).depth ≤ k + 1 :=
    Json.depth_object_le_iff.mpr
      (depth_notes_le hkeys fun f hf => Nat.le_of_add_le_add_right (hgiven f hf))
  have hall : (Json.array contracts).depth ≤ k + 1 :=
    Json.depth_array_le_iff.mpr (forall_mem_of_forall₂ (hcontracts.imp fun _ _ h =>
      (depth_contractJson_le h).trans (by omega)))
  have hsimilarities : (Json.array (c.similarities.map (·.toJson))).depth ≤ k + 1 :=
    Json.depth_array_le_iff.mpr
      (by simpa using fun s _ => (Similarity.depth_toJson_le s).trans (by omega))
  have hrelationships : (Json.array (c.relationships.map (·.toJson))).depth ≤ k + 1 :=
    Json.depth_array_le_iff.mpr
      (by simpa using fun r _ => (Relationship.depth_toJson_le r).trans (by omega))
  have hfailed : (Json.ofTexts c.failed).depth ≤ k + 1 :=
    (Json.depth_ofTexts_le _).trans (by omega)
  refine Json.depth_object_le_iff.mpr ?_
  simp only [List.forall_mem_cons]
  exact ⟨hnotes, by simp [Json.depth], (depth_figures_le hsummary).trans (by omega), hall,
    hsimilarities, hrelationships, hfailed, by simp⟩

theorem json_eq_print {room : Nat} {c : Comparison} {now : Moment}
    {given : List (String × Json)} {d : Json} (hd : data c now given = .ok d) :
    json room c now given = (d.print room).mapError .json := by
  rw [json, hd]
  rfl

theorem exists_data_of_json {room : Nat} {c : Comparison} {now : Moment}
    {given : List (String × Json)} {text : String} (h : json room c now given = .ok text) :
    ∃ d, data c now given = .ok d := by
  obtain ⟨d, hd, -⟩ := bind_eq_ok_iff.mp h
  exact ⟨d, mapError_eq_ok_iff.mp hd⟩

/-- Whole numbers below half the range of the doubles are short. -/
theorem isShort_of_natAbs_lt_two_pow {n : Int} {k : Nat} (hk : k ≤ 1023) (hn : n.natAbs < 2 ^ k) :
    Whole.IsShort n := by
  have hpow : 2 ^ k ≤ Nat.pow 10 (k + 1) :=
    (Nat.pow_le_pow_left (by decide) k).trans (Nat.pow_le_pow_right (by decide) (Nat.le_succ k))
  exact Whole.isShort_of_natAbs_lt ⟨Nat.succ_pos k, by unfold digitLimit; omega⟩
    (hn.trans_le hpow)

/-- There is a report of contracts with scores and with whole sizes below half the range of the
doubles. -/
theorem exists_data {c : Comparison} {k : Nat} (hk : k ≤ 1023)
    (h : ∀ p ∈ c.profiles, ∃ (n : Int) (score : Quantity), n.natAbs < 2 ^ k ∧
      p.size = some (.whole n) ∧ p.complexity = some score)
    (now : Moment) (given : List (String × Json)) : ∃ d, data c now given = .ok d := by
  obtain ⟨x, hx⟩ := Chart.exists_averageSize hk fun p hp => by
    obtain ⟨n, -, hn, hsize, -⟩ := h p hp
    exact ⟨n, hn, hsize⟩
  have hfigures : ∃ summary, figures c = .ok summary := by
    rw [figures, hx]
    exact ⟨_, rfl⟩
  have hcontracts : ∃ contracts, c.profiles.mapM contractJson = .ok contracts := by
    refine exists_mapM_iff.mpr fun p hp => ?_
    obtain ⟨n, score, hn, hsize, hscore⟩ := h p hp
    obtain ⟨text, htext⟩ := exists_sizeText (isShort_of_natAbs_lt_two_pow hk hn) hk (by
      have hcast : ((2 ^ k : Nat) : Int) = 2 ^ k := by push_cast; rfl
      simp only [megabyte]
      omega)
    refine ⟨_, contractJson_eq_ok_iff.mpr ⟨score, text, hscore, ?_, rfl⟩⟩
    exact bind_eq_ok_iff.mpr ⟨.whole n, Quantity.stated_eq_ok_iff.mpr hsize, htext⟩
  obtain ⟨summary, hsummary⟩ := hfigures
  obtain ⟨contracts, hcontracts⟩ := hcontracts
  exact ⟨_, data_eq_ok_iff.mpr ⟨summary, contracts, hsummary, mapM_eq_ok_iff.mp hcontracts, rfl⟩⟩

/-- The JSON text of a report is a document of the value that it is written from, and is read back
as that value: the notes with those handed in put over them, and everything else in its order.
There is a text wherever there is a value whose whole numbers are short and which is not nested too
deep, in particular for short comparisons, and a value in particular for contracts with scores and
with whole sizes that are not beyond the doubles. -/
theorem read_json (room : Nat) {c : Comparison} {given : List (String × Json)} (now : Moment)
    (hc : c.IsFinite) (hgiven : ∀ f ∈ given, f.2.passes .finite = true)
    (hkeys : (given.map Prod.fst).Nodup) :
    (∀ text, json room c now given = .ok text → ∃ d, data c now given = .ok d ∧
      Json.IsDocument d text ∧ Json.parse? text = some d) ∧
    (∀ d, data c now given = .ok d →
      ((∃ text, json room c now given = .ok text) ↔ d.passes .short = true ∧ d.depth ≤ room) ∧
      ∃ summary contracts, figures c = .ok summary ∧
      List.Forall₂ (fun p v => contractJson p = .ok v) c.profiles contracts ∧
      d = .object
        [("metadata", .object
          ([("export_time", Json.text now.universal),
            ("version", .text "1.0.0"),
            ("network", .text (if c.network.getD "" = "" then "mainnet" else c.network.getD "")),
            ("analysis_type", .text (if c.profiles.length = 1 then "single" else "multiple")),
            ("total_contracts", .int c.profiles.length)].map
              (fun f => (f.1, (Ledger.get? f.1 given).getD f.2)) ++
            given.filter fun f => f.1 ∉
              ["export_time", "version", "network", "analysis_type", "total_contracts"])),
         ("status", .text c.status.label),
         ("summary", summary),
         ("contracts", .array contracts),
         ("similarities", .array (c.similarities.map (·.toJson))),
         ("relationships", .array (c.relationships.map (·.toJson))),
         ("failed_addresses", .ofTexts c.failed)]) ∧
    (c.IsShort → 6 ≤ room →
      (∀ f ∈ given, f.2.passes .short = true ∧ f.2.depth + 2 ≤ room) →
      ∀ d, data c now given = .ok d → ∃ text, json room c now given = .ok text) ∧
    ((∀ p ∈ c.profiles, ∃ (n : Int) (score : Quantity), n.natAbs < 2 ^ 1023 ∧
      p.size = some (.whole n) ∧ p.complexity = some score) → ∃ d, data c now given = .ok d) := by
  have hwritten (d : Json) (hd : data c now given = .ok d) :
      (∃ text, json room c now given = .ok text) ↔ d.passes .short = true ∧ d.depth ≤ room := by
    simp only [json_eq_print hd, mapError_eq_ok_iff]
    exact Json.exists_print_iff
  refine ⟨fun text htext => ?_, fun d hd => ⟨hwritten d hd, ?_⟩, fun hshort hroom hnotes d hd => ?_,
    fun h => exists_data (Nat.le_refl 1023) h now given⟩
  · obtain ⟨d, hd⟩ := exists_data_of_json htext
    have hfinite := passes_data (passes_finite hc) hgiven hkeys hd
    rw [json_eq_print hd, mapError_eq_ok_iff] at htext
    exact ⟨d, hd, Json.isDocument_of_print hfinite htext, Json.parse?_of_print hfinite htext⟩
  · obtain ⟨summary, contracts, hsummary, hcontracts, rfl⟩ := data_eq_ok_iff.mp hd
    refine ⟨summary, contracts, hsummary, hcontracts, ?_⟩
    rw [whole, notes_eq c now hkeys]
    rfl
  · have hpasses := passes_data (passes_short hshort) (fun f hf => (hnotes f hf).1) hkeys hd
    have hdepth := depth_data_le hroom (fun f hf => (hnotes f hf).2) hkeys hd
    exact (hwritten d hd).mpr ⟨hpasses, hdepth⟩

/-- A contract whose name has quotes and a control in it, with a measured score. -/
def quotedContract : Comparison where
  profiles :=
    [{ address := "0xÄ"
       name := some "a \"b\"\\\n\x01"
       size := some (.whole 1536)
       complexity := some (.measured 12.5)
       patterns := [⟨"0xa9059cbb", "transfer(address,uint256)", .erc20, 0.7, none⟩] }]
  status := .notComparable
  failed := [","]

/-- One of the report's own notes and a new one. -/
def twoNotes : List (String × Json) :=
  [("note", .array [.float 0.5, .object []]), ("network", .text "test")]

def newYear : Moment := ⟨⟨2024, 1, 1⟩, 0, 0, 0, 0⟩

theorem read_json_quotedContract :
    ∃ d text, data quotedContract newYear twoNotes = .ok d ∧
      json 6 quotedContract newYear twoNotes = .ok text ∧ Json.IsDocument d text ∧
      Json.parse? text = some d := by
  have hscore : (12.5 : Binary64).isFinite = true := by decide +kernel
  have hconfidence : (0.7 : Binary64).isFinite = true := by decide +kernel
  have hfinite : quotedContract.IsFinite := by
    refine ⟨?_, by simp [quotedContract], by simp [quotedContract], ?_⟩
    · simp only [quotedContract, List.forall_mem_singleton]
      refine ⟨?_, ?_, ?_, ?_, ?_⟩ <;>
        simp [Quantity.passes, NumberTest.finite, hscore, hconfidence]
    · simp [quotedContract, Quantity.isMeasured]
  have hshort : quotedContract.IsShort := by
    refine ⟨?_, by simp [quotedContract], by decide⟩
    simp only [quotedContract, List.forall_mem_singleton]
    refine ⟨?_, ?_, ?_, ?_, ?_⟩ <;> simp [Quantity.passes, NumberTest.short] <;> decide
  have hnotes : ∀ f ∈ twoNotes, f.2.passes .finite = true := by decide +kernel
  have hnotesShort : ∀ f ∈ twoNotes, f.2.passes .short = true ∧ f.2.depth + 2 ≤ 6 := by decide
  have hkeys : (twoNotes.map Prod.fst).Nodup := by decide
  have hsizes : ∀ p ∈ quotedContract.profiles, ∃ (n : Int) (score : Quantity),
      n.natAbs < 2 ^ 1023 ∧ p.size = some (.whole n) ∧ p.complexity = some score := by
    simp only [quotedContract, List.forall_mem_singleton]
    exact ⟨1536, .measured 12.5, by decide +kernel, rfl, rfl⟩
  obtain ⟨hread, -, hwritten, hdata⟩ := read_json 6 newYear hfinite hnotes hkeys
  obtain ⟨d, hd⟩ := hdata hsizes
  obtain ⟨text, htext⟩ := hwritten hshort (Nat.le_refl 6) hnotesShort d hd
  obtain ⟨d', hd', hdocument, hparse⟩ := hread text htext
  obtain rfl := Except.ok.inj (hd'.symm.trans hd)
  exact ⟨d', text, hd, htext, hdocument, hparse⟩

end Report

end ContractSurvey
