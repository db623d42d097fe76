import ContractSurvey.Proofs.Comparison.Proxy
import ContractSurvey.Proofs.Report.Summary
import Mathlib.Algebra.Order.BigOperators.Group.List

/-!
# Proofs — Chart — Rows

The rows of the charts account for what they show.  No contract and no function is left out or
counted twice, and a row keeps what belongs to it through the sort: the contracts are sorted with
their places in the same way as their rows (`forall₂_mergeSort`), so that a colour follows its
contract.

* `sizesShown`: one row a contract, the largest first, the earlier one first among equal sizes.
* `functionsShown`: one row a category that occurs, with all functions of the category.
* `levelsShown`: every contract under its level, and no level without contracts.
* `proxiesShown`: one row a proxy of a comparison, with the sizes of the two contracts.  The size of
  an address is looked up among the contracts of the comparison, where it is found, and found once.

The main statement is `rows_account`.
-/

namespace ContractSurvey.Chart

/-! ### Rows that are sorted -/

theorem pairwise_mergeSort_by {α : Type} (f : α → Nat) (l : List α) :
    (l.mergeSort fun a b => f b ≤ f a).Pairwise fun a b => f b ≤ f a := by
  refine (List.pairwise_mergeSort (fun a b c hab hbc => ?_) (fun a b => ?_) l).imp of_decide_eq_true
  · exact decide_eq_true (Nat.le_trans (of_decide_eq_true hbc) (of_decide_eq_true hab))
  · simpa using Nat.le_total (f b) (f a)

section

variable {α β : Type} {R : α → β → Prop}

theorem forall₂_map_fst_snd {zs : List (α × β)} (h : ∀ z ∈ zs, R z.1 z.2) :
    List.Forall₂ R (zs.map Prod.fst) (zs.map Prod.snd) := by
  rw [List.forall₂_map_left_iff, List.forall₂_map_right_iff, List.forall₂_same]
  exact h

/-- Two lists that belong together still do when both are sorted by what they have in common. -/
theorem forall₂_mergeSort {le : α → α → Bool} {le' : β → β → Bool}
    (hle : ∀ a a' b b', R a b → R a' b' → le a a' = le' b b') {as : List α} {bs : List β}
    (h : List.Forall₂ R as bs) : List.Forall₂ R (as.mergeSort le) (bs.mergeSort le') := by
  obtain ⟨hlength, hzip⟩ := List.forall₂_iff_zip.mp h
  have hR : ∀ z ∈ as.zip bs, R z.1 z.2 := fun _ => hzip
  have hfirst : ((as.zip bs).mergeSort fun y z => le y.1 z.1).map Prod.fst = as.mergeSort le := by
    rw [List.map_mergeSort (s := le) fun _ _ _ _ => rfl, List.map_fst_zip hlength.le]
  have hsecond : ((as.zip bs).mergeSort fun y z => le y.1 z.1).map Prod.snd =
      bs.mergeSort le' := by
    rw [List.map_mergeSort fun y hy z hz => hle _ _ _ _ (hR y hy) (hR z hz),
      List.map_snd_zip hlength.ge]
  rw [← hfirst, ← hsecond]
  exact forall₂_map_fst_snd fun z hz => hR z (List.mem_mergeSort.mp hz)

end

/-! ### Sizes -/

section

variable {ps : List Profile} {total : Quantity}

/-- The row shows the contract, in the colour of its place. -/
structure SizeRow.Shows (total : Quantity) (placed : Profile × Nat) (r : SizeRow) : Prop where
  name : r.name = placed.1.name
  address : r.address = placed.1.address
  size : placed.1.size = some r.size
  percentage : sizeShare r.size total = .ok r.percentage
  color : cycle[placed.2 % cycle.length]? = some r.color

/-- The first contract is listed no later than the second: it is no smaller, and comes first where
the sizes are equal. -/
def ListedBefore (a b : Profile × Nat) : Prop :=
  b.1.AtMost a.1 ∧ (a.1.AtMost b.1 → a.2 < b.2)

/-- One row a contract, the largest first, equal ones in their order. -/
def SizesShown (ps : List Profile) (rows : List SizeRow) : Prop :=
  ∃ total placed, totalSize ps = .ok total ∧ placed.Perm ps.zipIdx ∧
    List.Forall₂ (SizeRow.Shows total) placed rows ∧
    ((∀ p ∈ ps, p.IsSized) → placed.Pairwise ListedBefore)

theorem cycleColor_eq (place : Nat) : cycle[place % cycle.length]? = some (cycleColor place) := by
  have hlt : place % cycle.length < cycle.length := Nat.mod_lt _ (by decide)
  rw [cycleColor, List.getElem?_eq_getElem hlt, Option.getD_some]

theorem shows_of_sizeRow {p : Profile} {place : Nat} {r : SizeRow}
    (h : sizeRow total p place = .ok r) : r.Shows total (p, place) := by
  simp only [sizeRow, bind, bind_eq_ok_iff, pure, Except.pure, Except.ok.injEq,
    Quantity.stated_eq_ok_iff] at h
  obtain ⟨q, hsize, x, hshare, rfl⟩ := h
  exact ⟨rfl, rfl, hsize, hshare, cycleColor_eq place⟩

theorem size_mark {p : Profile} {q : Quantity} (h : p.size = some q) : (mark p).size = q := by
  rw [mark, h]
  rfl

/-- The order of placed contracts by their sizes, the greatest first. -/
def noSmaller (a b : Profile × Nat) : Bool := (mark b.1).size ≤ (mark a.1).size

/-- The same order by the places of the sizes, which is total. -/
def placedBefore (a b : Profile × Nat) : Bool := sortsBefore a.1 b.1

theorem placedBefore_trans (a b c : Profile × Nat) :
    placedBefore a b = true → placedBefore b c = true → placedBefore a c = true :=
  sortsBefore_trans a.1 b.1 c.1

theorem placedBefore_total (a b : Profile × Nat) : (placedBefore a b || placedBefore b a) = true :=
  sortsBefore_total a.1 b.1

theorem noSmaller_eq {a b : Profile × Nat} (ha : a.1.IsSized) (hb : b.1.IsSized) :
    noSmaller a b = placedBefore a b := by
  rw [Bool.eq_iff_iff, noSmaller, decide_eq_true_iff]
  exact le_iff_sortsBefore ha hb

theorem pairwise_mergeSort_noSmaller (h : ∀ p ∈ ps, p.IsSized) :
    (ps.zipIdx.mergeSort noSmaller).Pairwise ListedBefore := by
  have hsized {a : Profile × Nat} (ha : a ∈ ps.zipIdx) : a.1.IsSized :=
    h _ (List.fst_mem_of_mem_zipIdx ha)
  have hsort : ps.zipIdx.mergeSort noSmaller = ps.zipIdx.mergeSort placedBefore := by
    simpa using List.map_mergeSort (f := id) fun _ ha _ hb => noSmaller_eq (hsized ha) (hsized hb)
  have hplaces : ps.zipIdx.Pairwise fun a b => a.2 < b.2 := by
    rw [← List.pairwise_map, List.zipIdx_map_snd]
    exact List.pairwise_lt_range'
  rw [hsort]
  refine (Sequence.pairwise_mergeSort_ties placedBefore_trans placedBefore_total
    hplaces).imp_of_mem ?_
  rintro a b ha hb ⟨hle, hties⟩
  have ha := hsized (List.mem_mergeSort.mp ha)
  have hb := hsized (List.mem_mergeSort.mp hb)
  refine ⟨atMost_of_sortsBefore ha hb hle, fun ⟨x, y, hx, hy, hxy⟩ => hties ?_⟩
  rw [← noSmaller_eq hb ha, noSmaller, size_mark hx, size_mark hy]
  exact decide_eq_true hxy

theorem sizesShown {rows : List SizeRow} (h : sizes ps = .ok rows) : SizesShown ps rows := by
  simp only [sizes, bind, bind_eq_ok_iff, pure, Except.pure, Except.ok.injEq, mapM_eq_ok_iff] at h
  obtain ⟨total, htotal, unsorted, hunsorted, rfl⟩ := h
  have hshows : List.Forall₂ (SizeRow.Shows total) ps.zipIdx unsorted :=
    hunsorted.imp fun _ _ => shows_of_sizeRow
  refine ⟨total, ps.zipIdx.mergeSort noSmaller, htotal, List.mergeSort_perm _ _,
    forall₂_mergeSort (fun a a' b b' hab hab' => ?_) hshows, pairwise_mergeSort_noSmaller⟩
  rw [noSmaller, size_mark hab.size, size_mark hab'.size]

/-- A whole part of a whole total has a share unless the quotient is beyond the doubles. -/
theorem exists_sizeShare {k : Nat} (hk : k ≤ 1023) {n total : Int}
    (h : 0 < total → n.natAbs < 2 ^ k * total.toNat) :
    ∃ x, sizeShare (.whole n) (.whole total) = .ok x := by
  unfold sizeShare
  split
  · next hpos =>
      obtain ⟨x, hx⟩ := Binary64.exists_quotient hk (h (by simpa [Quantity.isPositive] using hpos))
      rw [Quantity.quotient, hx]
      exact ⟨percent x, rfl⟩
  · exact ⟨0, rfl⟩

theorem exists_sizes {k : Nat} (hk : k ≤ 1023) {ns : List Int}
    (hsizes : ps.map (·.size) = ns.map fun n => some (.whole n))
    (h : ∀ n ∈ ns, 0 < ns.sum → n.natAbs < 2 ^ k * ns.sum.toNat) : ∃ rows, sizes ps = .ok rows := by
  have htotal : totalSize ps = .ok (.whole ns.sum) := by
    rw [totalSize, hsizes, Quantity.total_whole, List.sum_eq_foldl]
  have hrows : ∃ rows, ps.zipIdx.mapM (fun a => sizeRow (.whole ns.sum) a.1 a.2) = .ok rows := by
    refine exists_mapM_iff.mpr fun a ha => ?_
    have hmem : a.1.size ∈ ns.map fun n => some (.whole n) :=
      hsizes ▸ List.mem_map_of_mem (List.fst_mem_of_mem_zipIdx ha)
    obtain ⟨n, hn, hsize⟩ := List.mem_map.mp hmem
    obtain ⟨x, hx⟩ := exists_sizeShare hk (h n hn)
    simp only [sizeRow, ← hsize, Quantity.stated, ok_bind, hx]
    exact ⟨_, rfl⟩
  obtain ⟨rows, hrows⟩ := hrows
  simp only [sizes, htotal, ok_bind, hrows]
  exact ⟨_, rfl⟩

/-- Sizes that are not negative are shown, however large they are. -/
theorem exists_sizes_of_nonneg
    (h : ∀ p ∈ ps, ∃ n : Int, 0 ≤ n ∧ p.size = some (.whole n)) : ∃ rows, sizes ps = .ok rows := by
  obtain ⟨ns, hns, hsizes⟩ := exists_wholeSizes h
  refine exists_sizes (k := 1) (by decide) hsizes fun n hn hpos => ?_
  have hle : n ≤ ns.sum := List.single_le_sum hns n hn
  have hnonneg := hns n hn
  omega

theorem exists_sizes_of_natAbs_lt {k : Nat} (hk : k ≤ 1023)
    (h : ∀ p ∈ ps, ∃ n : Int, n.natAbs < 2 ^ k ∧ p.size = some (.whole n)) :
    ∃ rows, sizes ps = .ok rows := by
  obtain ⟨ns, hns, hsizes⟩ := exists_wholeSizes h
  refine exists_sizes hk hsizes fun n hn hpos => ?_
  exact Nat.lt_of_lt_of_le (hns n hn) (Nat.le_mul_of_pos_right _ (by omega))

end

/-! ### Functions by category -/

section

variable {ps : List Profile}

/-- One row a category that occurs, the most frequent first, with the number of its functions in
all contracts.  The numbers add up to that of all functions. -/
structure FunctionsShown (ps : List Profile) (rows : List FunctionRow) : Prop where
  nodup : (rows.map (·.category)).Nodup
  mem_iff (c : Category) : c ∈ rows.map (·.category) ↔ ∃ p ∈ ps, ∃ f ∈ p.patterns, f.category = c
  count : ∀ r ∈ rows, r.count = (ps.map fun p => (p.patternsIn r.category).length).sum
  total : (rows.map (·.count)).sum = (ps.map (·.functionCount)).sum
  descending : rows.Pairwise fun r s => s.count ≤ r.count

/-- The categories of all functions. -/
def categories (ps : List Profile) : List Category :=
  ps.flatMap fun p => p.patterns.map (·.category)

theorem length_categories (ps : List Profile) :
    (categories ps).length = (ps.map (·.functionCount)).sum := by
  simp [categories, List.length_flatMap, Profile.functionCount]

theorem count_categories (ps : List Profile) (c : Category) :
    (categories ps).count c = (ps.map fun p => (p.patternsIn c).length).sum := by
  rw [categories, List.count_flatMap]
  congr 1
  refine List.map_congr_left fun p _ => ?_
  rw [Function.comp, List.count_eq_countP, List.countP_map, List.countP_eq_length_filter]
  rfl

/-- The rows are the counts of the categories, in another order. -/
theorem functions_perm (ps : List Profile) :
    ((functions ps).map fun r => (r.category, r.count)).Perm (tally (categories ps)) := by
  refine ((List.mergeSort_perm _ _).map _).trans ?_
  rw [List.map_map, categories]
  exact .of_eq (List.map_id _)

theorem functionsShown (ps : List Profile) : FunctionsShown ps (functions ps) := by
  have hperm := functions_perm ps
  have hcategories :
      ((functions ps).map (·.category)).Perm (Sequence.distinct (categories ps)) := by
    have hfirst := hperm.map Prod.fst
    rw [List.map_map] at hfirst
    rwa [← keys_tally]
  exact {
    nodup := hcategories.nodup_iff.mpr (Sequence.nodup_distinct _)
    mem_iff := fun c => by
      rw [hcategories.mem_iff, Sequence.mem_distinct, categories, List.mem_flatMap]
      simp only [List.mem_map]
    count := fun r hr => by
      have hmem : (r.category, r.count) ∈ tally (categories ps) :=
        hperm.mem_iff.mp (List.mem_map_of_mem hr)
      rw [tally_eq, List.mem_map] at hmem
      obtain ⟨c, -, hpair⟩ := hmem
      obtain ⟨rfl, hcount⟩ := Prod.mk.inj hpair
      rw [← hcount, count_categories]
    total := by
      rw [← length_categories, ← sum_tally, ← (hperm.map Prod.snd).sum_eq, List.map_map]
      rfl
    descending := pairwise_mergeSort_by FunctionRow.count _ }

end

/-! ### Levels -/

section

variable {ps : List Profile}

/-- Every contract under its one level, the levels from low to high and none without contracts, the
contracts of a level by their names and in their order. -/
structure LevelsShown (ps : List Profile) (rows : List LevelRow) : Prop where
  levels : (rows.map (·.level)).Sublist ComplexityLevel.all
  ne_nil : ∀ r ∈ rows, r.contracts ≠ []
  contracts : ∀ r ∈ rows, r.contracts = (ps.filter (·.level? = some r.level)).map (·.name)
  level : ∀ p ∈ ps, ∃! r, r ∈ rows ∧ p.level? = some r.level
  total : (rows.map (·.contracts.length)).sum = ps.length

/-- The row of a level, with or without contracts. -/
def levelRow (ps : List Profile) (l : ComplexityLevel) : LevelRow :=
  { level := l, contracts := (ps.filter (·.level? = some l)).map (·.name) }

theorem levels_eq_ok_iff {rows : List LevelRow} : levels ps = .ok rows ↔
    (∀ p ∈ ps, p.complexity.isSome = true) ∧
      rows = (ComplexityLevel.all.map (levelRow ps)).filter fun r => !r.contracts.isEmpty := by
  have hall : ps.all (·.level?.isSome) = true ↔ ∀ p ∈ ps, p.complexity.isSome = true := by
    simp [Profile.level?]
  rw [levels, ← hall]
  split
  · next hsome =>
      rw [Except.ok.injEq, eq_comm]
      exact (and_iff_right hsome).symm
  · next hnone => exact iff_of_false nofun fun h => hnone h.1

/-- Rows without contracts add nothing. -/
theorem sum_filter_contracts (rows : List LevelRow) :
    ((rows.filter fun r => !r.contracts.isEmpty).map (·.contracts.length)).sum =
      (rows.map (·.contracts.length)).sum := by
  induction rows with
  | nil => rfl
  | cons r rows ih =>
      by_cases hempty : r.contracts = []
      · simp [hempty, ih]
      · simp [hempty, ih]

theorem exists_level? {p : Profile} (h : p.complexity.isSome = true) : ∃ l, p.level? = some l := by
  obtain ⟨score, hscore⟩ := Option.isSome_iff_exists.mp h
  rw [Profile.level?, hscore]
  exact ⟨_, rfl⟩

/-- Every contract is under one level. -/
theorem sum_levelRow (h : ∀ p ∈ ps, p.complexity.isSome = true) :
    ((ComplexityLevel.all.map (levelRow ps)).map (·.contracts.length)).sum = ps.length := by
  induction ps with
  | nil => rfl
  | cons p ps ih =>
      rw [List.forall_mem_cons] at h
      obtain ⟨l, hlevel⟩ := exists_level? h.1
      have ih := ih h.2
      simp only [ComplexityLevel.all, levelRow, List.map_cons, List.map_nil, List.length_map,
        List.sum_cons, List.sum_nil, List.filter_cons, hlevel, List.length_cons] at ih ⊢
      rw [← ih]
      cases l <;> simp <;> omega

theorem levelsShown {rows : List LevelRow} (h : levels ps = .ok rows) : LevelsShown ps rows := by
  obtain ⟨hsome, rfl⟩ := levels_eq_ok_iff.mp h
  have hmem {r : LevelRow}
      (hr : r ∈ (ComplexityLevel.all.map (levelRow ps)).filter fun r => !r.contracts.isEmpty) :
      r = levelRow ps r.level ∧ r.contracts ≠ [] := by
    obtain ⟨hr, hne⟩ := List.mem_filter.mp hr
    obtain ⟨l, -, rfl⟩ := List.mem_map.mp hr
    exact ⟨rfl, by simpa using hne⟩
  exact {
    levels := by
      have hsublist := List.filter_sublist (p := fun r : LevelRow => !r.contracts.isEmpty)
        (l := ComplexityLevel.all.map (levelRow ps))
      exact hsublist.map (·.level)
    ne_nil := fun r hr => (hmem hr).2
    contracts := fun r hr => congrArg LevelRow.contracts (hmem hr).1
    level := fun p hp => by
      obtain ⟨l, hlevel⟩ := exists_level? (hsome p hp)
      refine ⟨levelRow ps l, ⟨?_, hlevel⟩, ?_⟩
      · have hp : p.name ∈ (levelRow ps l).contracts :=
          List.mem_map_of_mem (List.mem_filter.mpr ⟨hp, decide_eq_true hlevel⟩)
        refine List.mem_filter.mpr ⟨List.mem_map_of_mem (ComplexityLevel.mem_all _), ?_⟩
        simpa using List.ne_nil_of_mem hp
      · rintro r ⟨hr, hr'⟩
        rw [(hmem hr).1, ← Option.some.inj (hlevel.symm.trans hr')]
    total := (sum_filter_contracts _).trans (sum_levelRow hsome) }

end

/-! ### Proxies -/

section

open Comparison

/-- The row shows the two contracts, with their own sizes. -/
structure ProxyRow.Shows (p q : Profile) (row : ProxyRow) : Prop where
  proxy : row.proxy = p.address
  implementation : row.implementation = q.address
  proxySize : row.proxySize = p.size
  implementationSize : row.implementationSize = q.size

/-- One row a proxy, in the order of the relationships.  The two contracts are those of the
comparison with these addresses. -/
structure ProxiesShown (c : Comparison) (rows : List ProxyRow) : Prop where
  unique : ∀ p ∈ c.profiles, ∀ q ∈ c.profiles, p.address = q.address → p = q
  rows : List.Forall₂
    (fun r row => ∃ p ∈ c.profiles, ∃ q ∈ c.profiles, r = Relationship.ofProxy p q ∧
      row.Shows p q ∧ row.description = r.description)
    (c.relationships.filter (·.kind = .proxyOf)) rows

theorem sizeAt_address {ps : List Profile} (h : (keys ps).Nodup) {p : Profile} (hp : p ∈ ps) :
    sizeAt ps p.address = p.size := by
  have hsome : (ps.reverse.find? (·.address = p.address)).isSome = true :=
    List.find?_isSome.mpr ⟨p, List.mem_reverse.mpr hp, decide_eq_true rfl⟩
  obtain ⟨q, hq⟩ := Option.isSome_iff_exists.mp hsome
  have haddress : q.address = p.address := by simpa using List.find?_some hq
  obtain rfl : q = p :=
    eq_of_address_eq h (List.mem_reverse.mp (List.mem_of_find?_eq_some hq)) hp haddress
  rw [sizeAt, hq, Option.map_some, Option.getD_some]

/-- A proxy among the relationships of a comparison is one of two of its contracts. -/
theorem exists_ofProxy {threshold : Binary64} {ps : List Profile} {failed : List String}
    {network : Option String} {r : Relationship}
    (hr : r ∈ (outcome threshold ps failed network).relationships) (hkind : r.kind = .proxyOf) :
    ∃ p ∈ ps, ∃ q ∈ ps, r = Relationship.ofProxy p q := by
  rw [outcome_relationships] at hr
  obtain ⟨pq, hpq, hdetect⟩ := List.mem_filterMap.mp hr
  obtain ⟨hp, hq⟩ := mem_of_mem_pairs hpq
  rcases looksLikeProxy_of_detect? hdetect hkind with ⟨-, hr⟩ | ⟨-, hr⟩
  · exact ⟨pq.1, hp, pq.2, hq, hr⟩
  · exact ⟨pq.2, hq, pq.1, hp, hr⟩

theorem proxiesShown {threshold : Binary64} {ps : List Profile} {failed : List String}
    {network : Option String} {c : Comparison}
    (h : ofProfiles threshold ps failed network = .ok c) :
    ProxiesShown c (proxies c.relationships c.profiles) := by
  obtain ⟨hkeys, rfl⟩ := ofProfiles_eq_ok_iff.mp h
  refine ⟨?_, ?_⟩
  · rw [outcome_profiles]
    exact fun p hp q hq => eq_of_address_eq hkeys hp hq
  · rw [proxies, List.forall₂_map_right_iff, List.forall₂_same, outcome_profiles]
    intro r hr
    obtain ⟨hr, hkind⟩ := List.mem_filter.mp hr
    obtain ⟨p, hp, q, hq, rfl⟩ := exists_ofProxy hr (of_decide_eq_true hkind)
    exact ⟨p, hp, q, hq, rfl, ⟨rfl, rfl, sizeAt_address hkeys hp, sizeAt_address hkeys hq⟩, rfl⟩

end

/-! ### All rows -/

/-- **The rows account for the contracts.**  Sizes have rows unless a quotient of theirs is beyond
the doubles, in particular where none is negative; levels have rows exactly where no score is
missing.  Every row shows what it should, and together they show everything once. -/
theorem rows_account (ps : List Profile) :
    (∀ rows, sizes ps = .ok rows → SizesShown ps rows) ∧
    ((∀ p ∈ ps, ∃ n : Int, 0 ≤ n ∧ p.size = some (.whole n)) → ∃ rows, sizes ps = .ok rows) ∧
    (∀ k ≤ 1023, (∀ p ∈ ps, ∃ n : Int, n.natAbs < 2 ^ k ∧ p.size = some (.whole n)) →
      ∃ rows, sizes ps = .ok rows) ∧
    FunctionsShown ps (functions ps) ∧
    (∀ rows, levels ps = .ok rows → LevelsShown ps rows) ∧
    ((∃ rows, levels ps = .ok rows) ↔ ∀ p ∈ ps, p.complexity.isSome = true) ∧
    ∀ threshold failed network c, Comparison.ofProfiles threshold ps failed network = .ok c →
      ProxiesShown c (proxies c.relationships c.profiles) := by
  refine ⟨fun _ => sizesShown, exists_sizes_of_nonneg, fun _ => exists_sizes_of_natAbs_lt,
    functionsShown ps, fun _ => levelsShown, ?_, fun _ _ _ _ => proxiesShown⟩
  simp only [levels_eq_ok_iff, exists_and_left, exists_eq, and_true]

/-- A proxy and its implementation, of one name and of equal size, and a larger contract. -/
def tiedContracts : List Profile :=
  [{ address := "0xa", name := some "Token", size := some (.whole 70), proxyKind := some .uups },
   { address := "0xb", name := some "Token", size := some (.whole 70),
     complexity := some (.whole 75),
     patterns := [⟨"0xa9059cbb", "transfer(address,uint256)", .erc20, 1, none⟩,
       ⟨"0x8da5cb5b", "owner()", .security, 1, none⟩,
       ⟨"0x18160ddd", "totalSupply()", .erc20, 1, none⟩] },
   { address := "0xc", name := none, size := some (.whole 90) }]

/-- The sizes are whole and not negative, and the scores are stated. -/
theorem rows_account_tied :
    ((∀ p ∈ tiedContracts, ∃ n : Int, 0 ≤ n ∧ p.size = some (.whole n)) ∧
      (∀ p ∈ tiedContracts, ∃ n : Int, n.natAbs < 2 ^ 7 ∧ p.size = some (.whole n)) ∧
      (∀ p ∈ tiedContracts, p.IsSized) ∧
      ∃ rows, sizes tiedContracts = .ok rows ∧ SizesShown tiedContracts rows) ∧
    ((∀ p ∈ tiedContracts, p.complexity.isSome = true) ∧
      ∃ rows, levels tiedContracts = .ok rows ∧ LevelsShown tiedContracts rows ∧
        rows = [⟨.low, [some "Token", none]⟩, ⟨.high, [some "Token"]⟩]) ∧
    ∃ c, Comparison.ofProfiles 80 tiedContracts [] none = .ok c ∧
      ProxiesShown c (proxies c.relationships c.profiles) ∧
      (proxies c.relationships c.profiles).map (fun r => (r.proxy, r.implementation)) =
        [("0xa", "0xb")] := by
  have hwhole : ∀ p ∈ tiedContracts,
      ∃ n : Int, 0 ≤ n ∧ n.natAbs < 2 ^ 7 ∧ p.size = some (.whole n) := by
    simp only [tiedContracts, List.forall_mem_cons, List.not_mem_nil, false_implies, implies_true]
    exact ⟨⟨70, by decide, by decide, rfl⟩, ⟨70, by decide, by decide, rfl⟩,
      ⟨90, by decide, by decide, rfl⟩, trivial⟩
  have hnonneg : ∀ p ∈ tiedContracts, ∃ n : Int, 0 ≤ n ∧ p.size = some (.whole n) := fun p hp =>
    (hwhole p hp).imp fun _ h => ⟨h.1, h.2.2⟩
  have hsmall : ∀ p ∈ tiedContracts, ∃ n : Int, n.natAbs < 2 ^ 7 ∧ p.size = some (.whole n) :=
    fun p hp => (hwhole p hp).imp fun _ h => h.2
  have hsized : ∀ p ∈ tiedContracts, p.IsSized := fun p hp => by
    obtain ⟨n, -, hsize⟩ := hnonneg p hp
    exact ⟨_, hsize, rfl⟩
  have hscored : ∀ p ∈ tiedContracts, p.complexity.isSome = true := by decide
  have hlevels : levels tiedContracts =
      .ok [⟨.low, [some "Token", none]⟩, ⟨.high, [some "Token"]⟩] := by decide +kernel
  have hcompared : Comparison.ofProfiles 80 tiedContracts [] none =
      .ok (Comparison.outcome 80 tiedContracts [] none) :=
    Comparison.ofProfiles_of_nodup (by decide +kernel)
  obtain ⟨hsizesShown, hexists, -, -, hlevelsShown, -, hproxiesShown⟩ := rows_account tiedContracts
  obtain ⟨rows, hrows⟩ := hexists hnonneg
  exact ⟨⟨hnonneg, hsmall, hsized, rows, hrows, hsizesShown _ hrows⟩,
    ⟨hscored, _, hlevels, hlevelsShown _ hlevels, rfl⟩,
    _, hcompared, hproxiesShown _ _ _ _ hcompared, by decide +kernel⟩

end ContractSurvey.Chart
