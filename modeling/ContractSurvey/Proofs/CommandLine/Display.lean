import ContractSurvey.Proofs.CommandLine.Markup
import ContractSurvey.Proofs.Comparison.Codes
import ContractSurvey.Proofs.Comparison.Threshold
import ContractSurvey.Proofs.Profile.Printer

/-!
# Proofs — CommandLine — Display

What is shown of a comparison is paired if the addresses of its contracts are plain.  A profile that
is made from a code adds only texts of its own to its address (`isPlain_of_ofCode`), so that its
summary is plain (`plain_summary`); each line and the table put plain pieces between a colour and
its closing tag.  The main statements are `isPaired_pairDisplay` and `isPaired_groupDisplay`.
-/

namespace ContractSurvey

open Markup

/-! ### Profiles -/

/-- The texts that are shown of a profile are plain. -/
structure Profile.IsPlain (p : Profile) : Prop where
  address : Plain p.address
  title : Plain p.title
  standards : ∀ c ∈ p.standards, Plain c.standard
  security : ∀ feature ∈ p.security, Plain feature

theorem TokenStandard.plain_of_mem_followed (patterns : List Pattern) :
    ∀ c ∈ followed patterns, Plain c.standard := by
  have hnames : ∀ s ∈ all, Plain s.name := by decide
  intro c h
  obtain ⟨s, hs, hc⟩ := List.mem_filterMap.mp h
  rw [(percent_of_compliance? hc).1]
  exact hnames s hs

theorem Feature.plain_of_mem_security (patterns : List Pattern) :
    ∀ feature ∈ security patterns, Plain feature := by
  have hmarks : ∀ mark ∈ securityMarks, Plain mark.2 := by decide
  intro feature h
  obtain ⟨mark, hmark, rfl⟩ := List.mem_map.mp h
  exact hmarks mark (List.mem_of_mem_filter hmark)

namespace Profile

theorem isPlain_of_ofCode {address : String} {code : Option String} {p : Profile}
    (haddress : Plain address) (h : ofCode address code none = .ok p) : p.IsPlain := by
  have hstandards :=
    TokenStandard.plain_of_mem_followed (Pattern.classify (Bytecode.selectors code) code)
  have hsecurity := Feature.plain_of_mem_security (Pattern.classify (Bytecode.selectors code) code)
  unfold ofCode at h
  split at h
  · cases h
  · cases h
    exact {
      address := haddress
      title := by
        rw [title, Option.getD_some, contractName, Option.getD_none, if_pos rfl]
        exact plain_contractName haddress
      standards := by
        dsimp only
        exact hstandards
      security := by
        dsimp only
        exact hsecurity }

theorem plain_levelTitle (p : Profile) : Plain p.levelTitle := by
  have hlabels : ∀ l ∈ ComplexityLevel.all, Plain l.label := by decide
  rw [levelTitle]
  cases p.level? with
  | none => decide
  | some l => exact hlabels l (ComplexityLevel.mem_all l)

theorem plain_standardLine {c : Compliance} {line : String} (hc : Plain c.standard)
    (h : standardLine c = .ok line) : Plain line := by
  obtain ⟨percent, hpercent, rfl⟩ := map_eq_ok_iff.mp h
  exact .append (.append (.append (.append (by decide) hc) (by decide)) (plain_shown hpercent))
    (by decide)

theorem plain_summary {p : Profile} (hp : p.IsPlain) {text : String} (h : p.summary = .ok text) :
    Plain text := by
  have hkinds : ∀ k ∈ ProxyKind.all, Plain k.label := by decide
  obtain ⟨size, candidates, complexity, standards, hsize, hcandidates, hcomplexity, hstandards,
    rfl⟩ := summary_eq_ok_iff.mp h
  have hlines : ∀ line ∈ standards, Plain line := by
    intro line hline
    obtain ⟨c, hc, hcline⟩ := exists_mem_of_mapM hstandards hline
    exact plain_standardLine (hp.standards c hc) hcline
  refine .intercalate (by decide) ?_
  simp only [linesWith, List.forall_mem_append, List.forall_mem_cons]
  refine ⟨⟨⟨⟨?contract, ?size, ?functions, ?complexity, by simp⟩, ?standards⟩, ?proxy⟩, ?security⟩
  case contract =>
    exact .append (.append (.append (.append (by decide) hp.title) (by decide)) hp.address)
      (by decide)
  case size => exact .append (.append (by decide) (plain_shown hsize)) (by decide)
  case functions =>
    exact .append (.append (.append (.append (by decide) (plain_toString _)) (by decide))
      (plain_shown hcandidates)) (by decide)
  case complexity =>
    exact .append (.append (.append (.append (by decide) (plain_shown hcomplexity)) (by decide))
      (plain_levelTitle p)) (by decide)
  case standards =>
    split
    · simp
    · exact List.forall_mem_cons.mpr ⟨by decide, hlines⟩
  case proxy =>
    split
    · next k _ =>
        exact List.forall_mem_singleton.mpr (.append (by decide) (hkinds k (ProxyKind.mem_all k)))
    · simp
  case security =>
    split
    · simp
    · exact List.forall_mem_singleton.mpr (.append (by decide)
        (.intercalate (by decide) hp.security))

end Profile

/-! ### Comparisons -/

/-- The contracts of a relationship are among those compared, and so are those that its description
names. -/
theorem Relationship.plain_description {threshold : Binary64} {a b : Profile}
    {s : Option Similarity} {r : Relationship} (ha : a.IsPlain) (hb : b.IsPlain)
    (h : detect? threshold a b s = some r) : Plain r.description := by
  have hproxy {p q : Profile} (hp : p.IsPlain) (hq : q.IsPlain) :
      Plain (ofProxy p q).description :=
    .append (.append hp.title (by decide)) hq.title
  unfold detect? at h
  split at h
  · cases h
    exact hproxy ha hb
  · split at h
    · cases h
      exact hproxy hb ha
    · split at h
      · cases h
      · split at h
        · cases h
          exact .append (.append (by decide) (plain_text _)) (by decide)
        · cases h

namespace CommandLine

/-- All texts of what is shown are paired. -/
def Shown.IsPaired (x : Shown) : Prop := ∀ t ∈ x.texts, Paired t

theorem isPaired_coloured {colour body : String} (hcolour : colour ∈ styles) (h : Plain body) :
    (coloured colour body).IsPaired :=
  List.forall_mem_singleton.mpr (.styled hcolour (.plain h))

theorem isPaired_summary {p : Profile} (hp : p.IsPlain) {text : String}
    (h : p.summary = .ok text) (style : Option String) : (Shown.text text style).IsPaired :=
  List.forall_mem_singleton.mpr (.plain (p.plain_summary hp h))

theorem isPaired_similarityTable {ss : List Similarity}
    (h : ∀ s ∈ ss, Plain s.first ∧ Plain s.second) : (similarityTable ss).IsPaired := by
  have hheadings : ∀ t ∈ ["合约相似度", "Contract A", "Contract B", "Similarity", "Shared"],
      Plain t := by decide
  intro t ht
  refine .plain ?_
  rcases List.mem_append.mp ht with ht | ht
  · exact hheadings t ht
  · obtain ⟨row, hrow, ht⟩ := List.mem_flatten.mp ht
    obtain ⟨s, hs, rfl⟩ := List.mem_map.mp hrow
    obtain ⟨hfirst, hsecond⟩ := h s hs
    simp only [List.mem_cons, List.not_mem_nil, or_false] at ht
    rcases ht with rfl | rfl | rfl | rfl
    · exact plain_short hfirst 4
    · exact plain_short hsecond 4
    · exact .append (plain_fixed 2 _) (by decide)
    · exact plain_toString _

theorem isPaired_relationshipLine {r : Relationship} (h : Plain r.description) :
    (relationshipLine r).IsPaired := by
  have hkinds : ∀ k ∈ RelationshipKind.all, Plain k.label := by decide
  have hkind : Plain r.kind.label := hkinds r.kind (by cases r.kind <;> decide)
  have hrest : Plain (" (" ++ r.confidence.fixed 2 ++ "): " ++ r.description) :=
    .append (.append (.append (by decide) (plain_fixed 2 _)) (by decide)) h
  have hbody : "[magenta]" ++ r.kind.label ++ "[/magenta] (" ++ r.confidence.fixed 2 ++ "): " ++
      r.description = "[" ++ "magenta" ++ "]" ++ r.kind.label ++ "[/" ++ "magenta" ++ "]" ++
        (" (" ++ r.confidence.fixed 2 ++ "): " ++ r.description) := by
    have hopen : "[magenta]" = "[" ++ "magenta" ++ "]" := by decide
    have hclose : "[/magenta] (" = "[/" ++ "magenta" ++ "]" ++ " (" := by decide
    simp only [hopen, hclose, String.append_assoc]
  refine List.forall_mem_singleton.mpr ?_
  rw [hbody]
  exact .append (.styled (by decide) (.plain hkind)) (.plain hrest)

theorem isPaired_familyLine {family : List Profile} (h : ∀ p ∈ family, p.IsPlain) (place : Nat) :
    (familyLine family place).IsPaired := by
  have hnumber : Plain ("家族 " ++ toString (place + 1) ++ ":") :=
    .append (.append (by decide) (plain_toString _)) (by decide)
  have htitles : ∀ t ∈ family.map (·.title), Plain t := by
    intro t ht
    obtain ⟨p, hp, rfl⟩ := List.mem_map.mp ht
    exact (h p hp).title
  have hnames : Plain (" " ++ ", ".intercalate (family.map (·.title))) :=
    .append (by decide) (.intercalate (by decide) htitles)
  have hbody : "[cyan]家族 " ++ toString (place + 1) ++ ":[/cyan] " ++
      ", ".intercalate (family.map (·.title)) =
        "[" ++ "cyan" ++ "]" ++ ("家族 " ++ toString (place + 1) ++ ":") ++ "[/" ++ "cyan" ++ "]" ++
          (" " ++ ", ".intercalate (family.map (·.title))) := by
    have hopen : "[cyan]家族 " = "[" ++ "cyan" ++ "]" ++ "家族 " := by decide
    have hclose : ":[/cyan] " = ":" ++ "[/" ++ "cyan" ++ "]" ++ " " := by decide
    simp only [hopen, hclose, String.append_assoc]
  refine List.forall_mem_singleton.mpr ?_
  rw [hbody]
  exact .append (.styled (by decide) (.plain hnumber)) (.plain hnames)

theorem isPaired_insightLine (i : Insight) : (insightLine i).IsPaired := by
  refine isPaired_coloured (by decide) ?_
  exact .append (.append (.append (.append (.append (.append (by decide) (plain_text _))
    (by decide)) (plain_text _)) (by decide)) (plain_toString _)) (by decide)

variable {c : Comparison} (hprofiles : ∀ p ∈ c.profiles, p.IsPlain)
include hprofiles

/-- **The pairs**: the table and the relationships of a comparison are paired. -/
theorem isPaired_pairDisplay {threshold : Binary64} {failed : List String}
    {network : Option String} (hc : c = .outcome threshold c.profiles failed network) :
    ∀ x ∈ pairDisplay c, x.IsPaired := by
  refine List.forall_mem_cons.mpr ⟨isPaired_similarityTable fun s hs => ?_, fun x hx => ?_⟩
  · rw [hc, Comparison.outcome_similarities, List.mem_mergeSort] at hs
    obtain ⟨ab, hab, hs⟩ := List.mem_filterMap.mp hs
    obtain ⟨ha, hb⟩ := Comparison.mem_of_mem_pairs hab
    obtain ⟨hfirst, hsecond, -⟩ := Similarity.of?_eq_some hs
    rw [hfirst, hsecond]
    exact ⟨(hprofiles _ ha).address, (hprofiles _ hb).address⟩
  · obtain ⟨r, hr, rfl⟩ := List.mem_map.mp hx
    rw [hc, Comparison.outcome_relationships] at hr
    obtain ⟨ab, hab, hr⟩ := List.mem_filterMap.mp hr
    obtain ⟨ha, hb⟩ := Comparison.mem_of_mem_pairs hab
    exact isPaired_relationshipLine
      (Relationship.plain_description (hprofiles _ ha) (hprofiles _ hb) hr)

/-- **The groups**: the families and the figures of a comparison are paired. -/
theorem isPaired_groupDisplay (threshold : Binary64) :
    ∀ x ∈ groupDisplay c threshold, x.IsPaired := by
  intro x hx
  rcases List.mem_append.mp hx with hx | hx
  · obtain ⟨⟨family, place⟩, hfamily, rfl⟩ := List.mem_map.mp hx
    obtain ⟨-, i, -, rfl⟩ := Comparison.mem_families.mp (List.fst_mem_of_mem_zipIdx hfamily)
    refine isPaired_familyLine (fun p hp => ?_) place
    obtain ⟨j, hj, -⟩ := Comparison.mem_members.mp hp
    exact hprofiles p (List.mem_of_getElem? hj)
  · obtain rfl := List.mem_singleton.mp hx
    exact isPaired_insightLine _

end CommandLine

end ContractSurvey
