import ContractSurvey.Proofs.Csv.Reader
import ContractSurvey.Proofs.Number.Nearest
import ContractSurvey.Proofs.Number.Text
import ContractSurvey.Report.Table
import Mathlib.Algebra.Group.Int.Defs

/-!
# Proofs — Report — Table

The table of a comparison is read back as its records: the titles, the headings and the empty
records where they belong, one row for each contract, one for each recognised function, one for each
similarity, in order and each field the text of its value (`read_table`).  There is a table exactly
if each contract and each similarity has a row: a contract may lack its size or its score, and a
number may have no text.  `exists_sizeText` says that every short whole size up to the range of the
doubles has one for a reader.
-/

namespace ContractSurvey

/-! ### Sizes -/

/-- A short whole size has a text if the megabytes in it are below half the range of the doubles. -/
theorem exists_sizeText {n : Int} {k : Nat} (hshort : Whole.IsShort n) (hk : k ≤ 1023)
    (h : n < 2 ^ k * megabyte) : ∃ s, sizeText n = .ok s := by
  unfold sizeText
  by_cases hbyte : n < kilobyte
  · rw [if_pos hbyte, countText, Whole.text_eq_ok_iff.mpr ⟨hshort, rfl⟩]
    exact ⟨_, rfl⟩
  by_cases hkilo : n < megabyte
  · have hsmall : n.natAbs < 2 ^ 10 * kilobyte := by
      simp only [kilobyte, megabyte] at *
      omega
    obtain ⟨x, hx⟩ := Binary64.exists_quotient (by decide) hsmall
    rw [if_neg hbyte, if_pos hkilo, hx]
    exact ⟨_, rfl⟩
  · have hsmall : n.natAbs < 2 ^ k * megabyte := by
      have hcast : ((2 ^ k * megabyte : Nat) : Int) = 2 ^ k * megabyte := by push_cast; rfl
      omega
    obtain ⟨x, hx⟩ := Binary64.exists_quotient hk hsmall
    rw [if_neg hbyte, if_neg hkilo, hx]
    exact ⟨_, rfl⟩

theorem Quantity.stated_eq_ok_iff {q : Option Quantity} {a : Quantity} :
    Quantity.stated q = .ok a ↔ q = some a := by
  cases q <;> simp [Quantity.stated]

namespace Report

/-! ### Rows -/

/-- The text is that of the quantity, and empty if there is none. -/
def IsQuantityField (q : Option Quantity) (s : String) : Prop :=
  match q with
  | some q => q.text = .ok s
  | none => s = ""

theorem quantityField_eq_ok_iff {q : Option Quantity} {s : String} :
    quantityField q = .ok s ↔ IsQuantityField q s := by
  cases q with
  | none => simp [quantityField, IsQuantityField, eq_comm]
  | some q => rfl

theorem exists_isQuantityField_iff {q : Option Quantity} :
    (∃ s, IsQuantityField q s) ↔ ∀ a ∈ q, a.passes .short = true := by
  cases q with
  | none => simp [IsQuantityField]
  | some q => simp [IsQuantityField, Quantity.exists_text_iff]

/-- The row of a contract, given the texts of its size, of the size for a reader and of its score,
and the level of the score. -/
def contractRow (p : Profile) (size formatted : String) (level : ComplexityLevel)
    (score : String) : List String :=
  [p.address, p.name.getD "", size, formatted,
   ", ".intercalate (p.standards.map (·.standard)), toString p.patterns.length,
   level.label, score, ", ".intercalate p.security,
   if p.proxyKind.isSome then "True" else "False", (p.proxyKind.map (·.label)).getD ""]

/-- The fields are those of the contract's row. -/
def IsContractRow (p : Profile) (fields : List String) : Prop :=
  ∃ size score sizeText formatted scoreText, p.size = some size ∧ p.complexity = some score ∧
    size.text = .ok sizeText ∧ bytesText size = .ok formatted ∧ score.text = .ok scoreText ∧
    fields = contractRow p sizeText formatted (.ofScore score) scoreText

/-- The fields are those of the similarity's row. -/
def IsSimilarityRow (s : Similarity) (fields : List String) : Prop :=
  ∃ total, IsQuantityField s.total total ∧
    fields = [s.first, s.second, s.percent.text, toString s.shared.length, total]

theorem contractRecord_eq_ok_iff {p : Profile} {fields : List String} :
    contractRecord p = .ok fields ↔ IsContractRow p fields := by
  simp only [contractRecord, bind, bind_eq_ok_iff, pure, Except.pure, Except.ok.injEq,
    Profile.level, map_eq_ok_iff, Quantity.stated_eq_ok_iff]
  constructor
  · rintro ⟨formatted, ⟨size, hsize, hformatted⟩, _, ⟨score, hscore, rfl⟩, sizeText, hsizeText,
      scoreText, hscoreText, rfl⟩
    rw [hsize] at hsizeText
    rw [hscore] at hscoreText
    exact ⟨size, score, sizeText, formatted, scoreText, hsize, hscore, hsizeText, hformatted,
      hscoreText, rfl⟩
  · rintro ⟨size, score, sizeText, formatted, scoreText, hsize, hscore, hsizeText, hformatted,
      hscoreText, rfl⟩
    refine ⟨formatted, ⟨size, hsize, hformatted⟩, _, ⟨score, hscore, rfl⟩, sizeText, ?_,
      scoreText, ?_, rfl⟩
    · rw [hsize]
      exact hsizeText
    · rw [hscore]
      exact hscoreText

theorem similarityRecord_eq_ok_iff {s : Similarity} {fields : List String} :
    similarityRecord s = .ok fields ↔ IsSimilarityRow s fields := by
  simp only [similarityRecord, map_eq_ok_iff, quantityField_eq_ok_iff, IsSimilarityRow]
  exact exists_congr fun _ => and_congr_right fun _ => eq_comm

/-- A contract with a short score and with a short whole size that is not beyond the doubles has a
row. -/
theorem exists_isContractRow {p : Profile} {n : Int} {score : Quantity} {k : Nat} (hk : k ≤ 1023)
    (hshort : Whole.IsShort n) (hn : n < 2 ^ k * megabyte) (hsize : p.size = some (.whole n))
    (hscore : p.complexity = some score) (hscoreShort : score.passes .short = true) :
    ∃ fields, IsContractRow p fields := by
  obtain ⟨formatted, hformatted⟩ := exists_sizeText hshort hk hn
  obtain ⟨scoreText, hscoreText⟩ := Quantity.exists_text_iff.mpr hscoreShort
  exact ⟨_, .whole n, score, _, formatted, scoreText, hsize, hscore,
    Quantity.text_whole_eq_ok_iff.mpr ⟨hshort, rfl⟩, hformatted, hscoreText, rfl⟩

theorem exists_isSimilarityRow_iff {s : Similarity} :
    (∃ fields, IsSimilarityRow s fields) ↔ ∀ q ∈ s.total, q.passes .short = true := by
  rw [← exists_isQuantityField_iff]
  constructor
  · rintro ⟨_, total, htotal, -⟩
    exact ⟨total, htotal⟩
  · rintro ⟨total, htotal⟩
    exact ⟨_, total, htotal, rfl⟩

/-! ### The table -/

/-- The table is read back as its records, by whichever rule for a carriage return it is written.
There is one exactly if each contract and each similarity has a row, in particular if each contract
has a short score and a short whole size that is not beyond the doubles, and each similarity a short
total. -/
theorem read_table (returns : Bool) (c : Comparison) :
    (∀ text, table returns c = .ok text → ∃ contracts similarities,
      List.Forall₂ IsContractRow c.profiles contracts ∧
      List.Forall₂ IsSimilarityRow c.similarities similarities ∧
      Csv.read text = some (
        [["Contract Analysis Summary"],
         ["Address", "Name", "Size (bytes)", "Size (formatted)", "Standards", "Functions Count",
          "Complexity Level", "Complexity Score", "Security Features", "Is Proxy",
          "Proxy Type"]] ++
        contracts ++
        [[],
         ["Detected Functions"],
         ["Contract Address", "Contract Name", "Selector", "Function Name", "Category"]] ++
        (c.profiles.flatMap fun p => p.patterns.map fun f =>
          [p.address, p.name.getD "", f.selector, f.name, f.category.label]) ++
        [[],
         ["Contract Similarities"],
         ["Contract A", "Contract B", "Similarity (%)", "Shared Functions", "Total Functions"]] ++
        similarities)) ∧
    ((∃ text, table returns c = .ok text) ↔
      (∀ p ∈ c.profiles, ∃ row, IsContractRow p row) ∧
        ∀ s ∈ c.similarities, ∃ row, IsSimilarityRow s row) ∧
    ((∀ p ∈ c.profiles, ∃ (n : Int) (score : Quantity), Whole.IsShort n ∧
        n < 2 ^ 1023 * megabyte ∧ p.size = some (.whole n) ∧ p.complexity = some score ∧
        score.passes .short = true) →
      (∀ s ∈ c.similarities, ∀ q ∈ s.total, q.passes .short = true) →
      ∃ text, table returns c = .ok text) := by
  have hexists : (∃ text, table returns c = .ok text) ↔
      (∀ p ∈ c.profiles, ∃ row, IsContractRow p row) ∧
        ∀ s ∈ c.similarities, ∃ row, IsSimilarityRow s row := by
    simp only [← contractRecord_eq_ok_iff, ← similarityRecord_eq_ok_iff, ← exists_mapM_iff]
    simp only [table, records, map_eq_ok_iff, bind, bind_eq_ok_iff, pure, Except.pure,
      Except.ok.injEq]
    constructor
    · rintro ⟨_, _, ⟨contracts, hcontracts, similarities, hsimilarities, -⟩, -⟩
      exact ⟨⟨contracts, hcontracts⟩, similarities, hsimilarities⟩
    · rintro ⟨⟨contracts, hcontracts⟩, similarities, hsimilarities⟩
      exact ⟨_, _, ⟨contracts, hcontracts, similarities, hsimilarities, rfl⟩, rfl⟩
  refine ⟨fun text htext => ?_, hexists, fun hcontracts hsimilarities => hexists.mpr
    ⟨fun p hp => ?_, fun s hs => exists_isSimilarityRow_iff.mpr (hsimilarities s hs)⟩⟩
  · simp only [table, records, map_eq_ok_iff, bind, bind_eq_ok_iff, pure, Except.pure,
      Except.ok.injEq] at htext
    obtain ⟨_, ⟨contracts, hcontracts, similarities, hsimilarities, rfl⟩, rfl⟩ := htext
    rw [mapM_eq_ok_iff] at hcontracts hsimilarities
    exact ⟨contracts, similarities, hcontracts.imp fun _ _ => contractRecord_eq_ok_iff.mp,
      hsimilarities.imp fun _ _ => similarityRecord_eq_ok_iff.mp, Csv.read_print returns _⟩
  · obtain ⟨n, score, hshort, hn, hsize, hscore, hscoreShort⟩ := hcontracts p hp
    exact exists_isContractRow (Nat.le_refl 1023) hshort hn hsize hscore hscoreShort

end Report

end ContractSurvey
