import ContractSurvey.Proofs.Bytecode.Extension
import ContractSurvey.Proofs.Profile.Code

/-!
# Proofs — Profile — Extension

Text behind a code takes nothing away from what is recognised in it.  A confidence is one of four
numbers and rises with each of the two facts that it counts (`confidenceIn_mono`).  Features and
percentages rise with the functions that are recognised, whatever the confidence in them (`Among`).
`FoundIn` collects what is found in a code, and `foundIn_append` says that it is found again in
every code that goes on from it.
-/

namespace ContractSurvey

open Bytecode (Continues)

/-! ### Confidence -/

namespace Pattern

/-- The confidence by what is known: whether the digits recur, and whether the hint was found. -/
def certainty (recurs hinted : Bool) : Binary64 :=
  match recurs, hinted with
  | false, false => 0.7
  | false, true => 0.8
  | true, false => 0.9
  | true, true => 1

/-- The same confidence as it is summed up. -/
def summed (recurs hinted : Bool) : Binary64 :=
  let c := if recurs then baseConfidence + recurrenceBonus else baseConfidence
  let c := if hinted then c + 0.1 else c
  (if (1 : Binary64) < c then 1 else c).roundTo 4

/-- The sums leave no residue. -/
theorem summed_eq : ∀ recurs hinted : Bool, summed recurs hinted = certainty recurs hinted := by
  decide +kernel

/-- A selector has the one word in its support, or none. -/
theorem hints_lookup (s : Selector) :
    s = "0x70a08231" ∧ hints.lookup s = some ("balanceof", 0.1) ∨
      s ≠ "0x70a08231" ∧ hints.lookup s = none := by
  by_cases hs : s = "0x70a08231"
  · rw [hs]
    exact .inl ⟨rfl, rfl⟩
  · rw [List.lookup_eq_none_iff]
    exact .inr ⟨hs, by simpa [hints] using hs⟩

theorem confidenceIn_eq (s : Selector) (cs : List Char) : confidenceIn s cs =
    certainty (1 < Text.occurrences (s.toList.drop 2) cs)
      (s = "0x70a08231" && Text.occursIn "balanceof".toList cs) := by
  have hrecurs (a b : Binary64) : (if 1 < Text.occurrences (s.toList.drop 2) cs then a else b) =
      if decide (1 < Text.occurrences (s.toList.drop 2) cs) = true then a else b := by
    split <;> simp_all
  rw [← summed_eq, confidenceIn, summed, hrecurs]
  rcases hints_lookup s with ⟨hs, hlookup⟩ | ⟨hs, hlookup⟩
  · rw [hlookup, decide_eq_true hs, Bool.true_and]
  · rw [hlookup, decide_eq_false hs, Bool.false_and]
    rfl

theorem certainty_mono : ∀ r r' h h' : Bool, (r = true → r' = true) → (h = true → h' = true) →
    certainty r h ≤ certainty r' h' := by
  decide +kernel

/-- Text behind a text makes no confidence less. -/
theorem confidenceIn_mono {cs ds : List Char} (h : cs <+: ds) (s : Selector) :
    confidenceIn s cs ≤ confidenceIn s ds := by
  rw [confidenceIn_eq, confidenceIn_eq]
  refine certainty_mono _ _ _ _ ?_ ?_
  · simp only [decide_eq_true_eq]
    exact fun hcs => Nat.lt_of_lt_of_le hcs (Bytecode.occurrences_mono h _)
  · simp only [Bool.and_eq_true, decide_eq_true_eq, Text.occursIn_iff]
    exact And.imp_right fun hword => hword.trans h.isInfix

/-- The functions of the first patterns are among the second ones, perhaps with another
confidence. -/
def Among (ps qs : List Pattern) : Prop := ∀ p ∈ ps, ∃ x, { p with confidence := x } ∈ qs

theorem Among.filter_category {ps qs : List Pattern} (h : Among ps qs) (c : Category) :
    Among (ps.filter (·.category = c)) (qs.filter (·.category = c)) := by
  intro p hp
  obtain ⟨hp, hc⟩ := List.mem_filter.mp hp
  obtain ⟨x, hx⟩ := h p hp
  exact ⟨x, List.mem_filter.mpr ⟨hx, hc⟩⟩

theorem Among.selectors_subset {ps qs : List Pattern} (h : Among ps qs) :
    ps.map (·.selector) ⊆ qs.map (·.selector) := by
  intro s hs
  obtain ⟨p, hp, rfl⟩ := List.mem_map.mp hs
  obtain ⟨x, hx⟩ := h p hp
  exact List.mem_map.mpr ⟨_, hx, rfl⟩

end Pattern

open Pattern (Among)

/-! ### Features -/

namespace Feature

variable {ps qs : List Pattern}

theorem anyNamed_mono (h : Among ps qs) {word : String} (hword : anyNamed word ps = true) :
    anyNamed word qs = true := by
  obtain ⟨p, hp, hname⟩ := List.any_eq_true.mp hword
  obtain ⟨x, hx⟩ := h p hp
  exact List.any_eq_true.mpr ⟨_, hx, hname⟩

theorem security_subset (h : Among ps qs) : security ps ⊆ security qs := by
  refine List.map_subset _ (List.Sublist.subset (List.monotone_filter_right _ fun mark => ?_))
  exact anyNamed_mono (h.filter_category .security)

/-- Rules that hold under weaker conditions report as much or more. -/
theorem map_filter_subset {rules weaker : List (Bool × String)}
    (h : List.Forall₂ (fun r r' => r.2 = r'.2 ∧ (r.1 = true → r'.1 = true)) rules weaker) :
    (rules.filter Prod.fst).map Prod.snd ⊆ (weaker.filter Prod.fst).map Prod.snd := by
  induction h with
  | nil => exact List.Subset.refl _
  | @cons r r' rules weaker hr h ih =>
      by_cases hholds : r.1 = true
      · rw [List.filter_cons_of_pos hholds, List.filter_cons_of_pos (hr.2 hholds), List.map_cons,
          List.map_cons, hr.1]
        exact List.cons_subset_cons _ ih
      · rw [List.filter_cons_of_neg hholds]
        exact List.Subset.trans ih
          (List.map_subset _ ((List.sublist_cons_self r' weaker).filter _).subset)

theorem gas_subset {code longer : Option String} (h : Among ps qs)
    (htext : Bytecode.text code <+: Bytecode.text longer) : gas ps code ⊆ gas qs longer := by
  have hholds (word : String) : Text.occursIn word.toList (Bytecode.text code) = true →
      Text.occursIn word.toList (Bytecode.text longer) = true := by
    rw [Text.occursIn_iff, Text.occursIn_iff]
    exact fun hword => hword.trans htext.isInfix
  have hnamed (word : String) : anyNamed word ps = true → anyNamed word qs = true := anyNamed_mono h
  have hor {a a' b b' : Bool} (ha : a = true → a' = true) (hb : b = true → b' = true) :
      (a || b) = true → (a' || b') = true := by
    rw [Bool.or_eq_true, Bool.or_eq_true]
    exact Or.imp ha hb
  have hand {a a' b b' : Bool} (ha : a = true → a' = true) (hb : b = true → b' = true) :
      (a && b) = true → (a' && b') = true := by
    rw [Bool.and_eq_true, Bool.and_eq_true]
    exact And.imp ha hb
  exact map_filter_subset
    (.cons ⟨rfl, hor (hholds _) (hholds _)⟩ <| .cons ⟨rfl, hor (hnamed _) (hnamed _)⟩ <|
      .cons ⟨rfl, hand (hholds _) (hholds _)⟩ <| .cons ⟨rfl, hholds _⟩ .nil)

end Feature

/-! ### Standards -/

namespace TokenStandard

theorem wholePercent_mono : ∀ s ∈ all, ∀ n ≤ s.required.length, ∀ m ≤ n,
    wholePercent m s.required.length ≤ wholePercent n s.required.length := by
  decide +kernel

/-- With more functions a standard is followed as far or farther. -/
theorem compliance?_mono {s : TokenStandard} (hs : s ∈ all) {found more : List Selector}
    (h : found ⊆ more) {r : Compliance} (hr : s.compliance? found = some r) :
    ∃ r', s.compliance? more = some r' ∧ r'.standard = r.standard ∧
      ∃ m n : Nat, r.percent = some (.whole m) ∧ r'.percent = some (.whole n) ∧ m ≤ n := by
  have hfilter : (s.required.filter (· ∈ found)).length ≤ (s.required.filter (· ∈ more)).length :=
    (List.monotone_filter_right _ fun t => by simpa using @h t).length_le
  have hpercent := wholePercent_mono s hs _ (List.length_filter_le (· ∈ more) _) _ hfilter
  simp only [compliance?] at hr ⊢
  split at hr
  · cases hr
  · next hne =>
      cases hr
      rw [if_neg (by omega)]
      exact ⟨_, rfl, rfl, _, _, rfl, rfl, hpercent⟩

theorem followed_mono {ps qs : List Pattern} (h : Among ps qs) {r : Compliance}
    (hr : r ∈ followed ps) : ∃ r' ∈ followed qs, r'.standard = r.standard ∧
      ∃ m n : Nat, r.percent = some (.whole m) ∧ r'.percent = some (.whole n) ∧ m ≤ n := by
  obtain ⟨s, hs, hsr⟩ := List.mem_filterMap.mp hr
  obtain ⟨r', hr', hmore⟩ := compliance?_mono hs h.selectors_subset hsr
  exact ⟨r', List.mem_filterMap.mpr ⟨s, hs, hr'⟩, hmore⟩

end TokenStandard

/-! ### Codes -/

/-- The patterns that a code is classified into. -/
def recognised (code : Option String) : List Pattern :=
  Pattern.classify (Bytecode.selectors code) code

/-- All that is found in one code is found in the other. -/
structure FoundIn (code longer : Option String) : Prop where
  selectors : Bytecode.selectors code ⊆ Bytecode.selectors longer
  /-- A pattern is found again, with a confidence that is no less. -/
  patterns (p : Pattern) : p ∈ recognised code →
    ∃ x, p.confidence ≤ x ∧ { p with confidence := x } ∈ recognised longer
  opcodes (m : String) : ((Bytecode.opcodeCounts code).get? m).getD 0 ≤
    ((Bytecode.opcodeCounts longer).get? m).getD 0
  opcodeFlags : Bytecode.opcodeFlags code ⊆ Bytecode.opcodeFlags longer
  gas : Feature.gas (recognised code) code ⊆ Feature.gas (recognised longer) longer
  security : Feature.security (recognised code) ⊆ Feature.security (recognised longer)
  /-- A standard is followed again, with a percentage that is no less. -/
  standards (r : Compliance) : r ∈ TokenStandard.followed (recognised code) →
    ∃ r' ∈ TokenStandard.followed (recognised longer), r'.standard = r.standard ∧
      ∃ m n : Nat, r.percent = some (.whole m) ∧ r'.percent = some (.whole n) ∧ m ≤ n
  trailer (t : Trailer) : Bytecode.trailer? code = some t → Bytecode.trailer? longer = some t

/-- A pattern is the one of its function, with the confidence that the text gives. -/
theorem exists_recognised {code longer : Option String}
    (hselectors : Bytecode.selectors code ⊆ Bytecode.selectors longer)
    (htext : Bytecode.text code <+: Bytecode.text longer) {p : Pattern} (hp : p ∈ recognised code) :
    ∃ x, p.confidence ≤ x ∧ { p with confidence := x } ∈ recognised longer := by
  obtain ⟨s, hs, e, he, rfl⟩ := Profile.mem_classify.mp hp
  refine ⟨Pattern.confidenceIn e.selector (Bytecode.text longer),
    Pattern.confidenceIn_mono htext _, ?_⟩
  exact Profile.mem_classify.mpr ⟨s, hselectors hs, e, he, rfl⟩

theorem FoundIn.of_continues {code longer : Option String} (h : Continues code longer) :
    FoundIn code longer := by
  have hselectors := h.selectors_subset
  have htext := h.texts.1
  have hpatterns (p : Pattern) (hp : p ∈ recognised code) :
      ∃ x, p.confidence ≤ x ∧ { p with confidence := x } ∈ recognised longer :=
    exists_recognised hselectors htext hp
  have hamong : Among (recognised code) (recognised longer) := fun p hp =>
    (hpatterns p hp).imp fun _ hx => hx.2
  exact {
    selectors := hselectors
    patterns := hpatterns
    opcodes := h.opcodeCounts_le
    opcodeFlags := Bytecode.opcodeFlags_subset h.opcodeCounts_le
    gas := Feature.gas_subset hamong htext
    security := Feature.security_subset hamong
    standards := fun _ => TokenStandard.followed_mono hamong
    trailer := fun _ => h.trailer?_eq }

/-- In a single `0` nothing is found. -/
theorem FoundIn.of_zero {code : Option String} (h : Bytecode.text code = ['0'])
    (longer : Option String) : FoundIn code longer := by
  have hselectors : Bytecode.selectors code = [] := by
    rw [Bytecode.selectors, h]
    decide
  have hrecognised : recognised code = [] := by
    rw [recognised, hselectors]
    simp [Pattern.classify, Sequence.distinct]
  have hcounts : Bytecode.opcodeCounts code = [] := by
    rw [Bytecode.opcodeCounts, Bytecode.instructions, h]
    decide
  have hflags : Bytecode.opcodeFlags code = [] := by
    rw [Bytecode.opcodeFlags, hcounts]
    decide
  have hgas : Feature.gas [] code = [] := by
    rw [Feature.gas, h]
    decide
  have hstandards : TokenStandard.followed [] = [] := by decide +kernel
  have htrailer : Bytecode.trailer? code = none := by
    rw [Bytecode.trailer?, h]
    decide
  exact {
    selectors := by simp [hselectors]
    patterns := by simp [hrecognised]
    opcodes := by simp [hcounts, Ledger.get?]
    opcodeFlags := by simp [hflags]
    gas := by simp [hrecognised, hgas]
    security := by
      rw [hrecognised]
      exact List.nil_subset _
    standards := by simp [hrecognised, hstandards]
    trailer := by simp [htrailer] }

/-- **Text behind a code takes nothing away.**  Whatever is found in digits, of either case, is
found again when ASCII is put behind them. -/
theorem foundIn_append {front rear : String} (hfront : ∀ c ∈ front.toList, Hex.isDigit c = true)
    (hrear : ∀ c ∈ rear.toList, c.toNat < 128) : FoundIn (some front) (some (front ++ rear)) := by
  by_cases hzero : Bytecode.text (some front) = ['0']
  · exact .of_zero hzero _
  · exact .of_continues (Bytecode.continues_append hfront hzero hrear)

/-- A selector and a last push that is cut off, with text behind them. -/
theorem foundIn_append_text : (∀ c ∈ "0063a9059cbB60".toList, Hex.isDigit c = true) ∧
    (∀ c ∈ "x63 ?F4\n".toList, c.toNat < 128) ∧
    "0xa9059cbb" ∈ Bytecode.selectors (some "0063a9059cbB60") ∧
    "0xa9059cbb" ∈ Bytecode.selectors (some ("0063a9059cbB60" ++ "x63 ?F4\n")) ∧
    FoundIn (some "0063a9059cbB60") (some ("0063a9059cbB60" ++ "x63 ?F4\n")) := by
  have hfront : ∀ c ∈ "0063a9059cbB60".toList, Hex.isDigit c = true :=
    List.all_eq_true.mp (by decide +kernel)
  have hrear : ∀ c ∈ "x63 ?F4\n".toList, c.toNat < 128 := by simp
  have hselector : "0xa9059cbb" ∈ Bytecode.selectors (some "0063a9059cbB60") := by decide +kernel
  have hfound := foundIn_append hfront hrear
  exact ⟨hfront, hrear, hselector, hfound.selectors hselector, hfound⟩

end ContractSurvey
