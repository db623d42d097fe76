import ContractSurvey.Proofs.Comparison.Exchange
import ContractSurvey.Proofs.Comparison.Ranking
import Mathlib.Logic.Relation

/-!
# Proofs — Comparison — Proxy

The proxies of a comparison as a graph, with an edge from each proxy to its implementation.

* `reportsProxy_outcome`: the edges are the ordered pairs of contracts of which the first looks like
  a proxy for the second, whatever the threshold.  A likeness is no edge.
* `functionCount_lt_of_path`: along an edge the number of functions grows, by each of the rules that
  tell a proxy, and so it grows along a path.
* `reportsProxy_acyclic`: no path leads back to where it starts.

A vertex is an address.  Two contracts of one address would be one vertex with two numbers of
functions, and a path could leave by the other one; this is where different addresses are needed.
-/

namespace ContractSurvey.Comparison

open Relation (TransGen)

/-- The comparison says that the first address is a proxy for the second. -/
def ReportsProxy (c : Comparison) (proxy implementation : String) : Prop :=
  ∃ r ∈ c.relationships, r.kind = .proxyOf ∧ r.first = proxy ∧ r.second = implementation

/-! ### Edges -/

/-- Two different elements of a list are one of its pairs. -/
theorem mem_pairs_or_mem_pairs {α : Type} {xs : List α} {a b : α} (ha : a ∈ xs) (hb : b ∈ xs)
    (hne : a ≠ b) : (a, b) ∈ pairs xs ∨ (b, a) ∈ pairs xs := by
  obtain ⟨i, rfl⟩ := List.mem_iff_get.mp ha
  obtain ⟨j, rfl⟩ := List.mem_iff_get.mp hb
  rw [pairs_eq_map_indexPairs, List.mem_map, List.mem_map]
  rcases lt_or_gt_of_ne fun e : i = j => hne (e ▸ rfl) with hij | hij
  · exact .inl ⟨(i, j), mem_indexPairs.mpr hij, rfl⟩
  · exact .inr ⟨(j, i), mem_indexPairs.mpr hij, rfl⟩

/-- A relationship of two contracts makes one a proxy only where it looks like one. -/
theorem looksLikeProxy_of_detect? {threshold : Binary64} {a b : Profile} {s : Option Similarity}
    {r : Relationship} (h : Relationship.detect? threshold a b s = some r)
    (hkind : r.kind = .proxyOf) :
    (Relationship.looksLikeProxy a b = true ∧ r = Relationship.ofProxy a b) ∨
      (Relationship.looksLikeProxy b a = true ∧ r = Relationship.ofProxy b a) := by
  unfold Relationship.detect? at h
  split at h
  · next hab => exact .inl ⟨hab, (Option.some.inj h).symm⟩
  · split at h
    · next hba => exact .inr ⟨hba, (Option.some.inj h).symm⟩
    · -- what is left is a likeness
      split at h
      · cases h
      · split at h
        · cases h
          cases hkind
        · cases h

section

variable {threshold : Binary64} {profiles : List Profile} {failed : List String}
  {network : Option String}

/-- **The edges** are the pairs of contracts of which the first looks like a proxy for the
second. -/
theorem reportsProxy_outcome {a b : String} :
    (outcome threshold profiles failed network).ReportsProxy a b ↔
      ∃ p ∈ profiles, ∃ q ∈ profiles,
        Relationship.looksLikeProxy p q = true ∧ p.address = a ∧ q.address = b := by
  rw [ReportsProxy, outcome_relationships]
  constructor
  · rintro ⟨r, hr, hkind, rfl, rfl⟩
    obtain ⟨pq, hpq, hdetect⟩ := List.mem_filterMap.mp hr
    obtain ⟨hp, hq⟩ := mem_of_mem_pairs hpq
    rcases looksLikeProxy_of_detect? hdetect hkind with ⟨hlooks, rfl⟩ | ⟨hlooks, rfl⟩
    · exact ⟨pq.1, hp, pq.2, hq, hlooks, rfl, rfl⟩
    · exact ⟨pq.2, hq, pq.1, hp, hlooks, rfl, rfl⟩
  · rintro ⟨p, hp, q, hq, hlooks, rfl, rfl⟩
    have hne : p ≠ q := by
      rintro rfl
      exact Relationship.not_looksLikeProxy_exchange hlooks hlooks
    refine ⟨Relationship.ofProxy p q, List.mem_filterMap.mpr ?_, rfl, rfl, rfl⟩
    -- the two may stand in either order, and backwards they do not look like a proxy
    rcases mem_pairs_or_mem_pairs hp hq hne with hmem | hmem
    · exact ⟨(p, q), hmem, if_pos hlooks⟩
    · have hback := Relationship.not_looksLikeProxy_exchange hlooks
      exact ⟨(q, p), hmem, (if_neg hback).trans (if_pos hlooks)⟩

/-! ### Paths -/

theorem eq_of_address_eq (h : (keys profiles).Nodup) {p q : Profile} (hp : p ∈ profiles)
    (hq : q ∈ profiles) (e : p.address = q.address) : p = q :=
  List.inj_on_of_nodup_map h hp hq (congrArg Text.lower e)

/-- Along a path of proxies the number of functions grows. -/
theorem functionCount_lt_of_path (h : (keys profiles).Nodup) {a b : String}
    (hab : TransGen (outcome threshold profiles failed network).ReportsProxy a b) :
    ∃ p ∈ profiles, ∃ q ∈ profiles,
      p.address = a ∧ q.address = b ∧ p.functionCount < q.functionCount := by
  induction hab with
  | single hedge =>
      obtain ⟨p, hp, q, hq, hlooks, ha, hb⟩ := reportsProxy_outcome.mp hedge
      exact ⟨p, hp, q, hq, ha, hb, Relationship.functionCount_lt_of_looksLikeProxy hlooks⟩
  | tail _ hedge ih =>
      obtain ⟨p, hp, q, hq, ha, hb, hpq⟩ := ih
      obtain ⟨q', hq', r, hr, hlooks, hb', hc⟩ := reportsProxy_outcome.mp hedge
      obtain rfl := eq_of_address_eq h hq hq' (hb.trans hb'.symm)
      have hqr := Relationship.functionCount_lt_of_looksLikeProxy hlooks
      exact ⟨p, hp, r, hr, ha, hc, hpq.trans hqr⟩

/-- **Proxies form no cycle.**  Contracts of different addresses can be compared, at any threshold,
and no chain of proxies among the relationships found, however long, leads from an address back to
it; in particular no two addresses are proxies for each other. -/
theorem reportsProxy_acyclic (h : (keys profiles).Nodup) (threshold : Binary64)
    (failed : List String) (network : Option String) :
    ∃ c, ofProfiles threshold profiles failed network = .ok c ∧
      (∀ a, ¬ TransGen c.ReportsProxy a a) ∧
      ∀ a b, c.ReportsProxy a b → ¬ c.ReportsProxy b a := by
  have hacyclic (a : String) :
      ¬ TransGen (outcome threshold profiles failed network).ReportsProxy a a := by
    intro hcycle
    obtain ⟨p, hp, q, hq, ha, ha', hpq⟩ := functionCount_lt_of_path h hcycle
    obtain rfl := eq_of_address_eq h hp hq (ha.trans ha'.symm)
    exact lt_irrefl _ hpq
  refine ⟨_, ofProfiles_of_nodup h, hacyclic, fun a b hab hba => ?_⟩
  exact hacyclic a (.tail (.single hab) hba)

end

/-- A proxy for a proxy: each contract has more functions than the one before. -/
def proxyChain : List Profile :=
  [{ address := "0xa", name := none, proxyKind := some .beacon },
   { address := "0xb", name := none, proxyKind := some .transparent,
     patterns := [⟨"0x5c60da1b", "implementation()", .proxy, 0, none⟩] },
   { address := "0xc", name := none,
     patterns := [⟨"0xa9059cbb", "transfer(address,uint256)", .erc20, 0, none⟩,
       ⟨"0x18160ddd", "totalSupply()", .erc20, 5, none⟩] }]

theorem reportsProxy_acyclic_proxyChain : (keys proxyChain).Nodup ∧
    ∃ c, ofProfiles 80 proxyChain [] none = .ok c ∧ c.ReportsProxy "0xa" "0xb" ∧
      c.ReportsProxy "0xb" "0xc" ∧ ¬ TransGen c.ReportsProxy "0xc" "0xc" := by
  have hn : (keys proxyChain).Nodup := by decide +kernel
  obtain ⟨c, hc, hacyclic, -⟩ := reportsProxy_acyclic hn 80 [] none
  obtain ⟨-, rfl⟩ := ofProfiles_eq_ok_iff.mp hc
  refine ⟨hn, _, hc, ?_, ?_, hacyclic "0xc"⟩
  · exact reportsProxy_outcome.mpr
      ⟨_, .head _, _, .tail _ (.head _), by decide +kernel, rfl, rfl⟩
  · exact reportsProxy_outcome.mpr
      ⟨_, .tail _ (.head _), _, .tail _ (.tail _ (.head _)), by decide +kernel, rfl, rfl⟩

end ContractSurvey.Comparison
