import ContractSurvey.Profile.Printer
import ContractSurvey.Proofs.Number.Nearest
import ContractSurvey.Proofs.Number.Text
import ContractSurvey.Proofs.Profile.Code
import Mathlib.Data.List.Infix

/-!
# Proofs — Profile — Printer

A profile that is made from a code has a summary: its numbers are short, the code being no longer
than the memory of any machine (`exists_summary`).  There are no more selectors than places in the
code where one can stand (`length_selectors_le`), and a score is a rounded double
(`Complexity.isShort_score`).
-/

namespace ContractSurvey

/-- A count of what a machine can hold is short. -/
theorem Whole.isShort_natCast {n : Nat} (h : n < 2 ^ 64) : IsShort n :=
  isShort_of_natAbs_lt (k := 20) (by decide) (Nat.lt_of_lt_of_le h (by decide))

/-- No more selectors are found in a code than it has characters, but for one. -/
theorem Bytecode.length_selectors_le (code : Option String) :
    (selectors code).length ≤ (text code).length + 1 := by
  have hnodup : (selectors code).Nodup := by
    unfold selectors
    dsimp only
    split
    · exact List.nodup_nil
    · exact Sequence.nodup_distinct _
  have hsubset : selectors code ⊆
      (text code).tails.map fun cs => "0x" ++ String.ofList (cs.take 8) := by
    intro t ht
    obtain ⟨s, rfl, hstands⟩ := exists_digits_of_mem_selectors ht
    obtain ⟨cs, hfront, hend⟩ := List.infix_iff_prefix_suffix.mp hstands
    refine List.mem_map.mpr ⟨cs, (List.mem_tails _ _).mpr hend, ?_⟩
    have htake : s.chars = cs.take 8 := by
      rw [← s.length_eq]
      exact List.prefix_iff_eq_take.mp hfront
    rw [← htake]
    rfl
  simpa using (List.subperm_of_subset hnodup hsubset).length_le

/-- Three binary digits are worth less than a decimal one. -/
theorem two_pow_lt_ten_pow {j k : Nat} (h : j < 3 * k) : 2 ^ j < 10 ^ k :=
  calc 2 ^ j < 2 ^ (3 * k) := Nat.pow_lt_pow_right (by decide) h
    _ = (2 ^ 3) ^ k := Nat.pow_mul 2 3 k
    _ ≤ 10 ^ k := Nat.pow_le_pow_left (by decide) k

/-- The whole number next to a double is short. -/
theorem Binary64.isShort_round? (x : Binary64) : Whole.IsShort (x.round?.getD 0) := by
  cases x with
  | nan => exact Whole.isShort_natCast (n := 0) (by decide)
  | infinite s => exact Whole.isShort_natCast (n := 0) (by decide)
  | finite s m e h =>
      have hunits : m * Nat.pow 2 e < 2 ^ 2098 := units_lt h (Nat.le_refl _)
      have hround : roundDiv (m * Nat.pow 2 e) one ≤ m * Nat.pow 2 e + 1 :=
        Nat.le_trans (roundDiv_le _ _) (Nat.add_le_add_right (Nat.div_le_self _ _) 1)
      obtain ⟨k, hk, hpow⟩ : ∃ k, (0 < k ∧ k ≤ digitLimit) ∧ 2 ^ 2098 < 10 ^ k :=
        ⟨700, by decide, two_pow_lt_ten_pow (by decide)⟩
      have hsmall : roundDiv (m * Nat.pow 2 e) one < 10 ^ k :=
        Nat.lt_of_le_of_lt (Nat.le_trans hround hunits) hpow
      refine Whole.isShort_of_natAbs_lt hk ?_
      rw [round?, Option.getD_some]
      cases s <;> simpa using hsmall

theorem Complexity.isShort_score (size : Binary64) (patterns : List Pattern) :
    Whole.IsShort (score size patterns) := Binary64.isShort_round? _

theorem Quantity.shown_whole {n : Int} (h : Whole.IsShort n) :
    Quantity.shown (some (.whole n)) = .ok (toString n) := text_whole_eq_ok_iff.mpr ⟨h, rfl⟩

namespace Profile

/-- The standards of a profile made from a code have lines of their own. -/
theorem exists_standardLine (patterns : List Pattern) :
    ∀ c ∈ TokenStandard.followed patterns, ∃ line, standardLine c = .ok line := by
  intro c hc
  obtain ⟨n, hn, -, hle⟩ := TokenStandard.percent_of_mem_followed hc
  have hshort : Whole.IsShort n := Whole.isShort_natCast (Nat.lt_of_le_of_lt hle (by decide))
  exact ⟨_, by rw [standardLine, hn, Quantity.shown_whole hshort]; rfl⟩

/-- The lines of a summary, given the texts of the quantities and the lines of the standards. -/
def linesWith (p : Profile) (size candidates complexity : String) (standards : List String) :
    List String :=
  ["Contract: " ++ p.title ++ " (" ++ p.address ++ ")",
   "Size: " ++ size ++ " bytes",
   "Functions: " ++ toString p.functionCount ++ " recognised / " ++ candidates ++ " candidates",
   "Complexity: " ++ complexity ++ "/100 (" ++ p.levelTitle ++ ")"] ++
  (if standards.isEmpty then [] else "Standards:" :: standards) ++
  (match p.proxyKind with
   | some k => ["Proxy: " ++ k.label]
   | none => []) ++
  (if p.security.isEmpty then [] else ["Security: " ++ ", ".intercalate p.security])

theorem summary_eq_ok_iff {p : Profile} {text : String} :
    p.summary = .ok text ↔ ∃ size candidates complexity standards,
      Quantity.shown p.size = .ok size ∧ Quantity.shown p.candidates = .ok candidates ∧
      Quantity.shown p.complexity = .ok complexity ∧
      p.standards.mapM standardLine = .ok standards ∧
      "\n".intercalate (p.linesWith size candidates complexity standards) = text := by
  simp only [summary, summaryLines, map_eq_ok_iff, bind, bind_eq_ok_iff, pure, Except.pure,
    Except.ok.injEq]
  constructor
  · rintro ⟨_, ⟨size, hsize, candidates, hcandidates, complexity, hcomplexity, standards,
      hstandards, rfl⟩, rfl⟩
    exact ⟨size, candidates, complexity, standards, hsize, hcandidates, hcomplexity, hstandards,
      rfl⟩
  · rintro ⟨size, candidates, complexity, standards, hsize, hcandidates, hcomplexity, hstandards,
      rfl⟩
    exact ⟨_, ⟨size, hsize, candidates, hcandidates, complexity, hcomplexity, standards,
      hstandards, rfl⟩, rfl⟩

/-- **Summaries**: the profile of a code has one. -/
theorem exists_summary {address : String} {code name : Option String} {p : Profile}
    (h : ofCode address code name = .ok p) (hcode : (Bytecode.text code).length < 2 ^ 63) :
    ∃ text, p.summary = .ok text := by
  have hselectors := Bytecode.length_selectors_le code
  have hsize : Bytecode.size code < 2 ^ 64 := by
    rw [Bytecode.size]
    omega
  have hcandidates : (Bytecode.selectors code).length < 2 ^ 64 := by omega
  obtain ⟨standards, hstandards⟩ := exists_mapM_iff.mpr
    (exists_standardLine (Pattern.classify (Bytecode.selectors code) code))
  unfold ofCode at h
  split at h
  · cases h
  · cases h
    exact ⟨_, summary_eq_ok_iff.mpr ⟨_, _, _, standards,
      Quantity.shown_whole (Whole.isShort_natCast hsize),
      Quantity.shown_whole (Whole.isShort_natCast hcandidates),
      Quantity.shown_whole (Complexity.isShort_score _ _), hstandards, rfl⟩⟩

end Profile

end ContractSurvey
