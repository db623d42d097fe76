import ContractSurvey.Proofs.Comparison.Codes

/-!
# Proofs — Comparison — Failed

The failed addresses of a comparison of codes, up to letter case.  An address without code is looked
up in the requests and among the codes up to letter case, but among the failed addresses handed in
as it is written.  So those added are pairwise different up to letter case (`nodup_newFailures`),
and one of them repeats an address handed in exactly if it is spelled in another way there
(`Respelled`).

`nodup_failed_ofCodes` says so of the whole list: it has no two spellings of one address exactly if
the list handed in has none and no request is respelled.
-/

namespace ContractSurvey.Comparison

variable {codes : Ledger String (Option String)} {failed : List String} {requests : List Request}

/-- A request without code that was handed in as failed, but only in other spellings. -/
structure Respelled (codes : Ledger String (Option String)) (failed : List String) (r : Request) :
    Prop where
  noCode : hasCode codes r.address = false
  notWritten : r.address ∉ failed
  spelled : r.key ∈ failed.map Text.lower

theorem mem_newFailures {a : String} :
    a ∈ newFailures codes failed requests ↔
      ∃ r ∈ requests, r.address = a ∧ hasCode codes r.address = false ∧ r.address ∉ failed := by
  simp only [newFailures, List.mem_filter, List.mem_map, Bool.not_eq_true', decide_eq_true_eq]
  constructor
  · rintro ⟨⟨⟨r, hr, rfl⟩, hcode⟩, hfailed⟩
    exact ⟨r, hr, rfl, hcode, hfailed⟩
  · rintro ⟨r, hr, rfl, hcode, hfailed⟩
    exact ⟨⟨⟨r, hr, rfl⟩, hcode⟩, hfailed⟩

/-- The addresses added are pairwise different up to letter case if those requested are. -/
theorem nodup_newFailures (h : (requests.map Request.key).Nodup) :
    ((newFailures codes failed requests).map Text.lower).Nodup := by
  have hsub : (newFailures codes failed requests).Sublist (requests.map (·.address)) :=
    List.filter_sublist.trans List.filter_sublist
  have hkeys : (requests.map (·.address)).map Text.lower = requests.map Request.key := by
    rw [List.map_map]
    rfl
  exact h.sublist (hkeys ▸ hsub.map Text.lower)

/-- An address added is one handed in, up to letter case, exactly for a request respelled. -/
theorem disjoint_newFailures_iff :
    List.Disjoint (failed.map Text.lower) ((newFailures codes failed requests).map Text.lower) ↔
      ∀ r ∈ requests, ¬ Respelled codes failed r := by
  constructor
  · rintro h r hr ⟨hcode, hwritten, hspelled⟩
    exact h hspelled (List.mem_map_of_mem (mem_newFailures.mpr ⟨r, hr, rfl, hcode, hwritten⟩))
  · intro h k hspelled hadded
    obtain ⟨a, ha, rfl⟩ := List.mem_map.mp hadded
    obtain ⟨r, hr, rfl, hcode, hwritten⟩ := mem_newFailures.mp ha
    exact h r hr ⟨hcode, hwritten, hspelled⟩

/-- **Failed addresses up to letter case**: they are those handed in, and behind them others that
are pairwise different up to letter case.  So no two are equal up to letter case exactly if this
holds of those handed in and none of the first requests is respelled; no text is listed twice if
none was handed in twice. -/
theorem nodup_failed_ofCodes (threshold : Binary64) (requests : List Request)
    (codes : Ledger String (Option String)) (failed : List String) (network : Option String) :
    ∃ c added, ofCodes threshold requests codes failed network = .ok c ∧
      c.failed = failed ++ added ∧ (added.map Text.lower).Nodup ∧
      ((c.failed.map Text.lower).Nodup ↔ (failed.map Text.lower).Nodup ∧
        ∀ r ∈ firstRequests requests, ¬ Respelled codes failed r) ∧
      (c.failed.Nodup ↔ failed.Nodup) := by
  obtain ⟨c, hc, -⟩ := exists_ofCodes_eq_ok threshold requests codes failed network
  have hfailed : c.failed = failed ++ newFailures codes failed (firstRequests requests) := by
    rw [eq_outcome_of_ofCodes hc, outcome_failed, allFailed]
  have hadded : ((newFailures codes failed (firstRequests requests)).map Text.lower).Nodup :=
    nodup_newFailures (nodup_keys_firstRequests requests)
  refine ⟨c, _, hc, hfailed, hadded, ?_, ?_⟩
  · rw [hfailed, List.map_append, List.nodup_append', disjoint_newFailures_iff]
    exact and_congr_right fun _ => and_iff_right hadded
  · have hnew : List.Disjoint failed (newFailures codes failed (firstRequests requests)) := by
      intro a ha hnew
      obtain ⟨r, -, rfl, -, hwritten⟩ := mem_newFailures.mp hnew
      exact hwritten ha
    rw [hfailed, List.nodup_append', and_iff_left ⟨hadded.of_map _, hnew⟩]

/-- The address handed in as failed is requested in capitals and listed once more. -/
theorem not_nodup_failed_capitals :
    (["0xaa"].map Text.lower).Nodup ∧
      ∃ c, ofCodes 80 [{ address := "0xAA" }] [] ["0xaa"] none = .ok c ∧
        c.failed = ["0xaa", "0xAA"] ∧ ¬ (c.failed.map Text.lower).Nodup := by
  have hc : ofCodes 80 [{ address := "0xAA" }] [] ["0xaa"] none =
      .ok { status := .notComparable, failed := ["0xaa", "0xAA"] } := rfl
  exact ⟨by decide +kernel, _, hc, rfl, by decide +kernel⟩

end ContractSurvey.Comparison
