import ContractSurvey.Text.CasedTable
import ContractSurvey.Text.CaseTable

/-!
# Text — LetterCase

Lower and upper case.  ASCII letters are answered by rule and all others by table; a few letters
become several characters.  One letter depends on its neighbours: a capital sigma that ends a word
has a small form of its own.

`lowerChars_of_not_mem` says that a text without capital sigmas is put into lower case character by
character, and `lowerChars_append` that such texts may be cut anywhere.
-/

namespace ContractSurvey.Text

/-- The other case of a character beyond ASCII, by a table of expansions and one of runs. -/
def byTable (expansions : List (Nat × List Nat)) (runs : List Run) (c : Char) : List Char :=
  match expansions.lookup c.toNat with
  | some ns => ns.map Char.ofNat
  | none =>
    match runs.find? (·.covers c.toNat) with
    | some r => [r.moved c.toNat]
    | none => [c]

def lowerChar (c : Char) : List Char :=
  if c.toNat < 128 then [c.toLower] else byTable lowerExpansions lowerRuns c

def upperChar (c : Char) : List Char :=
  if c.toNat < 128 then [c.toUpper] else byTable upperExpansions upperRuns c

/-! ### Sigma at the end of a word -/

def isCased (c : Char) : Bool := casedBlocks.any fun b => b.1 ≤ c.toNat && c.toNat ≤ b.2

def isPassed (c : Char) : Bool := passedBlocks.any fun b => b.1 ≤ c.toNat && c.toNat ≤ b.2

/-- Whether the word goes on with a letter. -/
def goesOn (cs : List Char) : Bool := (cs.dropWhile isPassed).head?.any isCased

/-- Puts the final small sigma for every capital one that stands behind a letter of a word and
before none; `inWord` says whether a letter stands before the text. -/
def closeWords (inWord : Bool) : List Char → List Char
  | [] => []
  | c :: rest =>
    (if c = 'Σ' && inWord && !goesOn rest then 'ς' else c) ::
      closeWords (if isPassed c then inWord else isCased c) rest

/-- The text in lower case.  Words are only looked at where a capital sigma is. -/
def lowerChars (cs : List Char) : List Char :=
  (if 'Σ' ∈ cs then closeWords false cs else cs).flatMap lowerChar

def lower (s : String) : String := String.ofList (lowerChars s.toList)

def upper (s : String) : String := String.ofList (s.toList.flatMap upperChar)

theorem closeWords_of_not_mem {cs : List Char} (h : 'Σ' ∉ cs) (inWord : Bool) :
    closeWords inWord cs = cs := by
  induction cs generalizing inWord with
  | nil => rfl
  | cons c rest ih =>
    rw [List.mem_cons, not_or] at h
    simp [closeWords, Ne.symm h.1, ih h.2]

theorem lowerChars_of_not_mem {cs : List Char} (h : 'Σ' ∉ cs) :
    lowerChars cs = cs.flatMap lowerChar := by simp [lowerChars, h]

theorem lowerChars_append {xs ys : List Char} (hx : 'Σ' ∉ xs) (hy : 'Σ' ∉ ys) :
    lowerChars (xs ++ ys) = lowerChars xs ++ lowerChars ys := by
  simp [lowerChars_of_not_mem, hx, hy]

end ContractSurvey.Text
