import ContractSurvey.Proofs.CommandLine.Value
import Mathlib.Data.List.TakeWhile

/-!
# Proofs — CommandLine — Giving

How a text is given to an option.  Behind the name and an equals sign any text may stand, also one
with dashes, blanks or further equals signs; in a word of its own it must not start with a dash.

* `exists_words_given`: a level that has the option takes the words for that.
* `walk_given`: so it enters the text and reads on.
* `exists_words_foreign`: a level that has no option whose name begins so takes the words for
  something else, but never refuses them.
-/

namespace ContractSurvey.CommandLine

/-! ### Words -/

/-- The name of an option in full: two dashes and something behind them, without an equals sign. -/
structure LongName (name : String) : Prop where
  long : ['-', '-'] <+: name.toList
  ne_dashes : name ≠ "--"
  unmarked : '=' ∉ name.toList

/-- Words that give an option a text: in one word, or in two if no dash stands at its front. -/
inductive Gives (name t : String) : List String → Prop
  | marked : Gives name t [name ++ "=" ++ t]
  | apart (plain : t.toList.head? ≠ some '-') : Gives name t [name, t]

/-- Such words with their roles. -/
inductive GivesWords (name t : String) : List Word → Prop
  | marked : GivesWords name t [⟨name ++ "=" ++ t, .option name (.marked t)⟩]
  | apart : GivesWords name t [⟨name, .option name .none⟩, ⟨t, .plain⟩]

theorem decide_ne_mark {stem : List Char} (h : '=' ∉ stem) :
    ∀ c ∈ stem, decide (c ≠ '=') = true := by
  intro c hc
  rw [decide_eq_true_eq]
  rintro rfl
  exact h hc

theorem splitMark_append {stem value : List Char} (h : '=' ∉ stem) :
    splitMark (stem ++ '=' :: value) = (stem, .marked (String.ofList value)) := by
  rw [splitMark, List.dropWhile_append_of_pos (decide_ne_mark h),
    List.takeWhile_append_of_pos (decide_ne_mark h)]
  simp

theorem splitMark_unmarked {stem : List Char} (h : '=' ∉ stem) :
    splitMark stem = (stem, .none) := by
  rw [splitMark, List.dropWhile_eq_nil_iff.mpr (decide_ne_mark h)]

theorem toList_marked (name t : String) :
    (name ++ "=" ++ t).toList = name.toList ++ '=' :: t.toList := by
  simp

theorem marked_ne_dashes (name t : String) : name ++ "=" ++ t ≠ "--" := by
  intro h
  have hmark : '=' ∈ (name ++ "=" ++ t).toList := by
    rw [toList_marked]
    simp
  rw [h] at hmark
  exact absurd hmark (by decide)

theorem words_cons {names : List String} {text : String} {texts : List String} {r : Role}
    {ws : List Word} (hdashes : text ≠ "--") (hr : role names text = .ok r)
    (hws : words names texts = .ok ws) : words names (text :: texts) = .ok (⟨text, r⟩ :: ws) := by
  rw [words, if_neg hdashes, hr, hws]
  rfl

/-- A word without a dash at its front is plain. -/
theorem words_cons_plain {names : List String} {text : String} {texts : List String}
    {ws : List Word} (h : text.toList.head? ≠ some '-') (hws : words names texts = .ok ws) :
    words names (text :: texts) = .ok (⟨text, .plain⟩ :: ws) := by
  refine words_cons ?_ (role_of_head_ne h) hws
  rintro rfl
  exact h rfl

/-- Only a word that may stand for several options has no role. -/
theorem exists_role_of_candidates {names : List String} {text : String}
    (h : candidates names text.toList = []) : ∃ r, role names text = .ok r := by
  unfold role
  dsimp only
  rw [h]
  split_ifs <;> exact ⟨_, rfl⟩

section

variable {names : List String} {name t : String} (hlong : LongName name)
include hlong

theorem LongName.head : name.toList.head? = some '-' := by
  obtain ⟨rest, hrest⟩ := hlong.long
  rw [← hrest]
  rfl

theorem role_exact (hname : name ∈ names) : role names name = .ok (.option name .none) := by
  rw [role]
  dsimp only
  rw [if_neg (not_not_intro hlong.head), if_pos hname]

theorem role_marked (hname : name ∈ names) (hmark : ∀ n ∈ names, '=' ∉ n.toList) (t : String) :
    role names (name ++ "=" ++ t) = .ok (.option name (.marked t)) := by
  obtain ⟨rest, hrest⟩ := hlong.long
  have hnew : name ++ "=" ++ t ∉ names := by
    intro h
    refine hmark _ h ?_
    rw [toList_marked]
    simp
  have hhead : (name ++ "=" ++ t).toList.head? = some '-' := by
    rw [toList_marked, ← hrest]
    rfl
  have hlength : (name ++ "=" ++ t).toList.length ≠ 1 := by
    rw [toList_marked, ← hrest]
    simp
  have hsplit : splitMark (name ++ "=" ++ t).toList = (name.toList, .marked t) := by
    rw [toList_marked, splitMark_append hlong.unmarked, String.ofList_toList]
  rw [role]
  dsimp only
  rw [if_neg (not_not_intro hhead), if_neg hnew, if_neg hlength, hsplit]
  dsimp only
  rw [String.ofList_toList, if_pos hname]

/-- A level takes the words for what they give its option. -/
theorem exists_words_given (hname : name ∈ names) (hmark : ∀ n ∈ names, '=' ∉ n.toList)
    {given : List String} (h : Gives name t given) {texts : List String} {ws : List Word}
    (hws : words names texts = .ok ws) :
    ∃ front, GivesWords name t front ∧ words names (given ++ texts) = .ok (front ++ ws) := by
  cases h with
  | marked =>
      have hrole := role_marked hlong hname hmark t
      exact ⟨_, .marked, words_cons (marked_ne_dashes name t) hrole hws⟩
  | apart plain =>
      refine ⟨_, .apart, words_cons hlong.ne_dashes (role_exact hlong hname) ?_⟩
      exact words_cons_plain plain hws

/-- A level that has no option of this name takes the words for something else. -/
theorem exists_words_foreign (hforeign : ∀ n ∈ names, ¬ name.toList <+: n.toList)
    {given : List String} (h : Gives name t given) {texts : List String} {ws : List Word}
    (hws : words names texts = .ok ws) : ∃ ws', words names (given ++ texts) = .ok ws' := by
  -- a word may be short for an option, but only for one whose name begins with it
  have hnone : (names.filter fun n => name.toList.isPrefixOf n.toList) = [] := by
    refine List.filter_eq_nil_iff.mpr fun n hn hprefix => hforeign n hn ?_
    exact List.isPrefixOf_iff_prefix.mp hprefix
  cases h with
  | marked =>
      have hlong' : ['-', '-'].isPrefixOf (name ++ "=" ++ t).toList = true := by
        rw [List.isPrefixOf_iff_prefix, toList_marked]
        exact hlong.long.trans (List.prefix_append _ _)
      have hcandidates : candidates names (name ++ "=" ++ t).toList = [] := by
        rw [candidates, if_pos hlong', toList_marked, splitMark_append hlong.unmarked]
        dsimp only
        rw [hnone, List.map_nil]
      obtain ⟨r, hr⟩ := exists_role_of_candidates hcandidates
      exact ⟨_, words_cons (marked_ne_dashes name t) hr hws⟩
  | apart plain =>
      have hcandidates : candidates names name.toList = [] := by
        rw [candidates, if_pos (List.isPrefixOf_iff_prefix.mpr hlong.long),
          splitMark_unmarked hlong.unmarked]
        dsimp only
        rw [hnone, List.map_nil]
      obtain ⟨r, hr⟩ := exists_role_of_candidates hcandidates
      exact ⟨_, words_cons hlong.ne_dashes hr (words_cons_plain plain hws)⟩

end

section

variable {name t : String} {front : List Word} (h : GivesWords name t front) (ws : List Word)
include h

theorem textsOf_given : textsOf name (front ++ ws) = t :: textsOf name ws := by
  cases h with
  | marked => exact textsOf_cons_of_eq_some (by simp [Word.textFor?])
  | apart =>
      have hnext : Word.textFor? name ⟨name, .option name .none⟩ (some ⟨t, .plain⟩) = some t := by
        simp [Word.textFor?]
      exact (textsOf_cons_of_eq_some hnext).trans (congrArg _ (textsOf_cons_plain rfl))

/-- The level enters the text and reads on. -/
theorem walk_given {α β : Type} {g : Grammar α β} {o : ValueOption α} (hhelp : name ∉ helpNames)
    (ho : g.options.find? (·.name = name) = some o) (p : Progress α) :
    g.walk (front ++ ws) p = (g.enter o t p).bind (g.walk ws) := by
  cases h with
  | marked =>
      rw [List.singleton_append, Grammar.walk.eq_def]
      dsimp only
      rw [if_neg hhelp, ho]
      rfl
  | apart =>
      rw [List.cons_append, List.singleton_append, Grammar.walk.eq_def]
      dsimp only
      rw [if_neg hhelp, ho]
      rfl

end

end ContractSurvey.CommandLine
