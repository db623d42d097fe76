import ContractSurvey.Proofs.Profile.Extension

/-!
# Proofs — Profile — Growth

What is read off recognised functions — the standards, the security features, the kind of proxy and
the habits that save gas — depends on which patterns there are, and not on their order or on how
often one is there (`SameReadings`).  With more patterns nothing is taken back (`Grown`): the rules
ask for what is there, never for what is not, except that a first rule which holds hides the later
ones, and so the kind of proxy moves to the front of `ProxyKind.order`.

A standard is silent when the share of its required functions rounds to nothing and is full when
the share rounds to 100.  The standards are so small that neither happens to any other share than
none and all (`compliance?_eq_none_iff`, `percent_eq_hundred_iff`).

The main statement is `readings_of_patterns`.
-/

namespace ContractSurvey

open Pattern (Among)

theorem Pattern.Among.of_subset {ps qs : List Pattern} (h : ps ⊆ qs) : Among ps qs :=
  fun p hp => ⟨p.confidence, h hp⟩

/-! ### Kinds of proxy -/

namespace ProxyKind

/-- The kinds of proxy, the most telling first, and no proxy last. -/
def order : List (Option ProxyKind) :=
  [some .diamond, some .uups, some .beacon, some .transparent, some .unknown, none]

/-- The place of a kind in the order is the place of the first mark that is there. -/
theorem idxOf_order (there : String × ProxyKind → Bool) :
    order.idxOf (some (((marks.find? there).map Prod.snd).getD .unknown)) =
      marks.findIdx there := by
  simp only [marks, List.find?_cons, List.findIdx_cons]
  cases there ("facet", .diamond) with
  | true => rfl
  | false =>
      cases there ("proxiableUUID", .uups) with
      | true => rfl
      | false =>
          cases there ("beacon", .beacon) with
          | true => rfl
          | false => cases there ("implementation", .transparent) <;> rfl

theorem idxOf_order_le (k : Option ProxyKind) : order.idxOf k ≤ order.idxOf none := by
  rcases k with _ | (_ | _ | _ | _ | _) <;> decide

end ProxyKind

/-! ### Features -/

namespace Feature

variable {ps qs : List Pattern}

theorem anyNamed_congr (h : ∀ p, p ∈ ps ↔ p ∈ qs) (word : String) :
    anyNamed word ps = anyNamed word qs := by
  rw [Bool.eq_iff_iff, anyNamed, anyNamed, List.any_eq_true, List.any_eq_true]
  simp only [h]

theorem mem_filter_congr (h : ∀ p, p ∈ ps ↔ p ∈ qs) (test : Pattern → Bool) (p : Pattern) :
    p ∈ ps.filter test ↔ p ∈ qs.filter test := by
  rw [List.mem_filter, List.mem_filter, h]

theorem security_congr (h : ∀ p, p ∈ ps ↔ p ∈ qs) : security ps = security qs := by
  simp only [security, anyNamed_congr (mem_filter_congr h _)]

theorem gas_congr (h : ∀ p, p ∈ ps ↔ p ∈ qs) (code : Option String) :
    gas ps code = gas qs code := by
  simp only [gas, anyNamed_congr h]

theorem proxyKind?_congr (h : ∀ p, p ∈ ps ↔ p ∈ qs) : proxyKind? ps = proxyKind? qs := by
  have hown := mem_filter_congr h (·.category = .proxy)
  have hempty : (ps.filter (·.category = .proxy)).isEmpty =
      (qs.filter (·.category = .proxy)).isEmpty := by
    rw [Bool.eq_iff_iff, List.isEmpty_iff, List.isEmpty_iff, List.eq_nil_iff_forall_not_mem,
      List.eq_nil_iff_forall_not_mem]
    simp only [hown]
  simp only [proxyKind?, hempty, anyNamed_congr hown]

/-- With more patterns the first mark that is there is no later one. -/
theorem idxOf_proxyKind?_le (h : Among ps qs) :
    ProxyKind.order.idxOf (proxyKind? qs) ≤ ProxyKind.order.idxOf (proxyKind? ps) := by
  have hown := h.filter_category .proxy
  by_cases hps : ps.filter (·.category = .proxy) = []
  · have hnone : proxyKind? ps = none := by
      simp only [proxyKind?]
      rw [if_pos (List.isEmpty_iff.mpr hps)]
    rw [hnone]
    exact ProxyKind.idxOf_order_le _
  · obtain ⟨p, hp⟩ := List.exists_mem_of_ne_nil _ hps
    obtain ⟨x, hx⟩ := hown p hp
    have hqs : qs.filter (·.category = .proxy) ≠ [] := List.ne_nil_of_mem hx
    simp only [proxyKind?]
    rw [if_neg (mt List.isEmpty_iff.mp hps), if_neg (mt List.isEmpty_iff.mp hqs),
      ProxyKind.idxOf_order, ProxyKind.idxOf_order]
    exact List.findIdx_le_findIdx fun mark _ => anyNamed_mono hown

end Feature

/-! ### Standards -/

/-- The second report is about the same standard and says that it is followed as far or farther. -/
structure Compliance.Extends (r r' : Compliance) : Prop where
  standard : r'.standard = r.standard
  percent : ∃ m n : Nat, r.percent = some (.whole m) ∧ r'.percent = some (.whole n) ∧ m ≤ n
  missing : r'.missing.Sublist r.missing
  extra : r.extra.Sublist r'.extra

namespace TokenStandard

variable {s : TokenStandard} {found more : List Selector}

theorem wholePercent_eq_zero_iff : ∀ s ∈ all, ∀ n ≤ s.required.length,
    wholePercent n s.required.length = 0 ↔ n = 0 := by
  decide +kernel

theorem wholePercent_eq_hundred_iff : ∀ s ∈ all, ∀ n ≤ s.required.length,
    wholePercent n s.required.length = 100 ↔ n = s.required.length := by
  decide +kernel

/-- A standard is silent exactly when none of its required functions is found. -/
theorem compliance?_eq_none_iff (hs : s ∈ all) :
    s.compliance? found = none ↔ ∀ t ∈ s.required, t ∉ found := by
  have hzero := wholePercent_eq_zero_iff s hs _ (List.length_filter_le (· ∈ found) s.required)
  rw [List.length_eq_zero_iff, List.filter_eq_nil_iff] at hzero
  simp only [compliance?]
  split
  · next hpercent => simpa using hzero.mp hpercent
  · next hpercent =>
      refine iff_of_false (Option.some_ne_none _) fun hnone => hpercent (hzero.mpr ?_)
      simpa using hnone

/-- What a report says. -/
theorem eq_of_compliance? {r : Compliance} (hr : s.compliance? found = some r) :
    r.percent =
        some (.whole (wholePercent (s.required.filter (· ∈ found)).length s.required.length)) ∧
      r.missing = (s.required.filter (· ∉ found)).map Signature.nameOf ∧
      r.extra = (s.optional.filter (· ∈ found)).map Signature.nameOf := by
  simp only [compliance?] at hr
  split at hr
  · cases hr
  · cases hr
    exact ⟨rfl, rfl, rfl⟩

/-- A standard is followed in full exactly when nothing is missing. -/
theorem percent_eq_hundred_iff (hs : s ∈ all) {r : Compliance} (hr : s.compliance? found = some r) :
    r.percent = some (.whole 100) ↔ r.missing = [] := by
  obtain ⟨hpercent, hmissing, -⟩ := eq_of_compliance? hr
  have hfull := wholePercent_eq_hundred_iff s hs _ (List.length_filter_le (· ∈ found) s.required)
  rw [List.length_filter_eq_length_iff] at hfull
  rw [hpercent, hmissing, Option.some.injEq, Quantity.whole.injEq, List.map_eq_nil_iff,
    List.filter_eq_nil_iff]
  refine (by omega : _ ↔ _).trans (hfull.trans ?_)
  simp

theorem compliance?_congr (h : ∀ t, t ∈ found ↔ t ∈ more) :
    s.compliance? found = s.compliance? more := by
  simp only [compliance?, h]

/-- With more functions found a standard is followed as far or farther. -/
theorem compliance?_extends (hs : s ∈ all) (h : found ⊆ more) {r : Compliance}
    (hr : s.compliance? found = some r) : ∃ r', s.compliance? more = some r' ∧ r.Extends r' := by
  obtain ⟨r', hr', hstandard, hpercent⟩ := compliance?_mono hs h hr
  obtain ⟨-, hmissing, hextra⟩ := eq_of_compliance? hr
  obtain ⟨-, hmissing', hextra'⟩ := eq_of_compliance? hr'
  refine ⟨r', hr', hstandard, hpercent, ?_, ?_⟩
  · rw [hmissing, hmissing']
    exact (List.monotone_filter_right _ fun t => by simpa using mt (@h t)).map _
  · rw [hextra, hextra']
    exact (List.monotone_filter_right _ fun t => by simpa using @h t).map _

theorem mem_followed {ps : List Pattern} {r : Compliance} :
    r ∈ followed ps ↔ ∃ s ∈ all, s.compliance? (ps.map (·.selector)) = some r :=
  List.mem_filterMap

theorem followed_congr {ps qs : List Pattern} (h : ∀ p, p ∈ ps ↔ p ∈ qs) :
    followed ps = followed qs := by
  have hselectors (t : Selector) : t ∈ ps.map (·.selector) ↔ t ∈ qs.map (·.selector) := by
    simp only [List.mem_map, h]
  exact List.filterMap_congr fun s _ => compliance?_congr hselectors

theorem followed_extends {ps qs : List Pattern} (h : Among ps qs) {r : Compliance}
    (hr : r ∈ followed ps) : ∃ r' ∈ followed qs, r.Extends r' := by
  obtain ⟨s, hs, hr⟩ := mem_followed.mp hr
  obtain ⟨r', hr', hextends⟩ := compliance?_extends hs h.selectors_subset hr
  exact ⟨r', mem_followed.mpr ⟨s, hs, hr'⟩, hextends⟩

/-- A standard is not reported exactly when no pattern has one of its required functions. -/
theorem not_reported_iff (hs : s ∈ all) (ps : List Pattern) :
    (∀ r ∈ followed ps, r.standard ≠ s.name) ↔ ∀ t ∈ s.required, ∀ p ∈ ps, p.selector ≠ t := by
  have hnone : s.compliance? (ps.map (·.selector)) = none ↔
      ∀ t ∈ s.required, ∀ p ∈ ps, p.selector ≠ t := by
    rw [compliance?_eq_none_iff hs]
    simp only [List.mem_map, not_exists, not_and, ne_eq]
  rw [← hnone]
  constructor
  · intro h
    rw [Option.eq_none_iff_forall_ne_some]
    exact fun r hr => h r (mem_followed.mpr ⟨s, hs, hr⟩) (percent_of_compliance? hr).1
  · intro h r hr hname
    obtain ⟨s', hs', hr⟩ := mem_followed.mp hr
    -- the standards have different names
    have hsame : s' = s :=
      List.inj_on_of_nodup_map (by decide : (all.map (·.name)).Nodup) hs' hs
        ((percent_of_compliance? hr).1.symm.trans hname)
    rw [hsame, h] at hr
    cases hr

end TokenStandard

/-! ### Readings -/

/-- The same is read off two lists of patterns. -/
structure SameReadings (ps qs : List Pattern) : Prop where
  standards : TokenStandard.followed ps = TokenStandard.followed qs
  security : Feature.security ps = Feature.security qs
  proxyKind : Feature.proxyKind? ps = Feature.proxyKind? qs
  gas (code : Option String) : Feature.gas ps code = Feature.gas qs code

/-- What is read off the first patterns is read off the second ones, and perhaps more. -/
structure Grown (ps qs : List Pattern) : Prop where
  standards (r : Compliance) : r ∈ TokenStandard.followed ps →
    ∃ r' ∈ TokenStandard.followed qs, r.Extends r'
  security : Feature.security ps ⊆ Feature.security qs
  /-- The kind of proxy moves to the front only. -/
  proxyKind : ProxyKind.order.idxOf (Feature.proxyKind? qs) ≤
    ProxyKind.order.idxOf (Feature.proxyKind? ps)
  gas (code : Option String) : Feature.gas ps code ⊆ Feature.gas qs code

theorem SameReadings.of_mem_iff {ps qs : List Pattern} (h : ∀ p, p ∈ ps ↔ p ∈ qs) :
    SameReadings ps qs where
  standards := TokenStandard.followed_congr h
  security := Feature.security_congr h
  proxyKind := Feature.proxyKind?_congr h
  gas := Feature.gas_congr h

theorem Grown.of_subset {ps qs : List Pattern} (h : ps ⊆ qs) : Grown ps qs where
  standards _ := TokenStandard.followed_extends (.of_subset h)
  security := Feature.security_subset (.of_subset h)
  proxyKind := Feature.idxOf_proxyKind?_le (.of_subset h)
  gas _ := Feature.gas_subset (.of_subset h) List.prefix_rfl

/-- **What patterns tell.**  The readings depend on which patterns there are and grow with them.  A
standard is followed in full exactly when nothing is missing, and is not reported exactly when none
of its required functions is there. -/
theorem readings_of_patterns (ps : List Pattern) :
    (∀ qs, (∀ p, p ∈ qs ↔ p ∈ ps) → SameReadings qs ps) ∧
    (∀ qs, ps ⊆ qs → Grown ps qs) ∧
    (∀ r ∈ TokenStandard.followed ps, r.percent = some (.whole 100) ↔ r.missing = []) ∧
    ∀ s ∈ TokenStandard.all, (∀ r ∈ TokenStandard.followed ps, r.standard ≠ s.name) ↔
      ∀ t ∈ s.required, ∀ p ∈ ps, p.selector ≠ t := by
  refine ⟨fun _ => .of_mem_iff, fun _ => .of_subset, fun r hr => ?_, fun s hs => ?_⟩
  · obtain ⟨s, hs, hr⟩ := TokenStandard.mem_followed.mp hr
    exact TokenStandard.percent_eq_hundred_iff hs hr
  · exact TokenStandard.not_reported_iff hs ps

/-- A beacon that is also a token, one function listed twice, and the same with facets. -/
theorem readings_of_patterns_facets :
    let transfer : Pattern := ⟨"0xa9059cbb", "transfer(address,uint256)", .erc20, 0.9, "ERC-20"⟩
    let beacon : Pattern := ⟨"0x3659cfe6", "beacon", .proxy, 0.7, none⟩
    let facets : Pattern := ⟨"0x7a0ed627", "facets()", .proxy, 0.7, none⟩
    let report : Compliance :=
      ⟨"ERC20", some (.whole 17), ["balanceOf(address)", "transferFrom(address,address,uint256)",
        "approve(address,uint256)", "allowance(address,address)", "totalSupply()"], []⟩
    (∀ p, p ∈ [beacon, transfer, beacon] ↔ p ∈ [transfer, beacon]) ∧
      SameReadings [beacon, transfer, beacon] [transfer, beacon] ∧
      [transfer, beacon] ⊆ [transfer, facets, beacon] ∧
      Grown [transfer, beacon] [transfer, facets, beacon] ∧
      report ∈ TokenStandard.followed [transfer, beacon] ∧
      (report.percent = some (.whole 100) ↔ report.missing = []) ∧
      TokenStandard.erc1155 ∈ TokenStandard.all ∧
      ((∀ r ∈ TokenStandard.followed [transfer, beacon], r.standard ≠ "ERC1155") ↔
        ∀ t ∈ TokenStandard.erc1155.required, ∀ p ∈ [transfer, beacon], p.selector ≠ t) := by
  intro transfer beacon facets report
  have hmem (p : Pattern) : p ∈ [beacon, transfer, beacon] ↔ p ∈ [transfer, beacon] := by
    simp only [List.mem_cons, List.not_mem_nil, or_false]
    tauto
  have hsubset : [transfer, beacon] ⊆ [transfer, facets, beacon] :=
    List.cons_subset_cons _ (List.subset_cons_self _ _)
  have hreport : report ∈ TokenStandard.followed [transfer, beacon] := by decide +kernel
  have hstandard : TokenStandard.erc1155 ∈ TokenStandard.all := by simp [TokenStandard.all]
  obtain ⟨hsame, hgrown, hfull, habsent⟩ := readings_of_patterns [transfer, beacon]
  exact ⟨hmem, hsame _ hmem, hsubset, hgrown _ hsubset, hreport, hfull _ hreport, hstandard,
    habsent _ hstandard⟩

end ContractSurvey
