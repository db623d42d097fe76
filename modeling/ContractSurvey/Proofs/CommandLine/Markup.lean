import ContractSurvey.CommandLine.Display
import ContractSurvey.Proofs.Json.Numeral
import ContractSurvey.Proofs.Sequence.Outcome
import Mathlib.Data.List.Chain

/-!
# Proofs — CommandLine — Markup

Texts that a screen can be relied on to take.  A screen reads a name in brackets as a tag.  A tag
with a slash in front of its name closes one of that name, and has to have one to close; a tag
behind a backslash is none.  A `Paired` text is put together of plain pieces, in which no closing
tag starts, and of pieces between a colour and the tag that closes it.

Numbers are plain, and so is the short form of a plain address (`plain_written`, `plain_fixed`,
`plain_short`).
-/

namespace ContractSurvey

namespace Markup

/-- No closing tag starts in the text, and what comes behind it neither becomes one nor stops being
a tag. -/
structure Plain (text : String) : Prop where
  chain : text.toList.IsChain fun c d => ¬ (c = '[' ∧ d = '/')
  last : ∀ c ∈ text.toList.getLast?, c ≠ '[' ∧ c ≠ '\\'

theorem plain_iff {text : String} : Plain text ↔
    text.toList.IsChain (fun c d => ¬ (c = '[' ∧ d = '/')) ∧
      text.toList.getLast?.all (fun c => c ≠ '[' ∧ c ≠ '\\') = true := by
  simp only [Option.all_eq_true, decide_eq_true_iff]
  exact ⟨fun h => ⟨h.chain, h.last⟩, fun h => ⟨h.1, h.2⟩⟩

instance (text : String) : Decidable (Plain text) := decidable_of_iff _ plain_iff.symm

/-- The names of the styles that are written in brackets. -/
def styles : List String := ["bold", "cyan", "dim", "green", "magenta", "red", "yellow"]

/-- Every closing tag of the text closes the style before the piece that it ends. -/
inductive Paired : String → Prop
  | plain {text : String} (h : Plain text) : Paired text
  | styled {style text : String} (mem : style ∈ styles) (h : Paired text) :
      Paired ("[" ++ style ++ "]" ++ text ++ "[/" ++ style ++ "]")
  | append {s t : String} (hs : Paired s) (ht : Paired t) : Paired (s ++ t)

/-! ### Plain texts -/

namespace Plain

variable {s t : String}

theorem append (hs : Plain s) (ht : Plain t) : Plain (s ++ t) where
  chain := by
    -- no bracket ends the first text, so no tag starts across the seam
    rw [String.toList_append, List.isChain_append]
    exact ⟨hs.chain, ht.chain, fun c hc _ _ htag => (hs.last c hc).1 htag.1⟩
  last := by
    intro c hc
    rw [String.toList_append, List.getLast?_append] at hc
    cases htext : t.toList.getLast? with
    | none => exact hs.last c (by simpa [htext] using hc)
    | some d => exact ht.last c (by simpa [htext] using hc)

/-- A text without opening brackets and backslashes is plain. -/
theorem of_forall (h : ∀ c ∈ s.toList, c ≠ '[' ∧ c ≠ '\\') : Plain s where
  chain := by
    refine List.Pairwise.isChain (List.pairwise_of_forall_mem_list fun c hc d _ htag => ?_)
    exact (h c hc).1 htag.1
  last c hc := h c (List.mem_of_getLast? hc)

theorem intercalate {separator : String} (hseparator : Plain separator) {texts : List String}
    (h : ∀ t ∈ texts, Plain t) : Plain (separator.intercalate texts) := by
  induction texts with
  | nil => exact of_forall (by simp)
  | cons t texts ih =>
      obtain ⟨ht, htexts⟩ := List.forall_mem_cons.mp h
      cases texts with
      | nil => rwa [String.intercalate_singleton]
      | cons u texts =>
          rw [String.intercalate_cons_cons]
          exact (ht.append hseparator).append (ih htexts)

end Plain

/-! ### Numbers -/

/-- The characters of a number that is written out. -/
def IsNumeric (c : Char) : Prop := c.isDigit = true ∨ c ∈ ['.', '-', '+', 'e']

instance (c : Char) : Decidable (IsNumeric c) := inferInstanceAs (Decidable (_ ∨ _))

theorem Plain.of_isNumeric {s : String} (h : ∀ c ∈ s.toList, IsNumeric c) : Plain s := by
  refine .of_forall fun c hc => ⟨?_, ?_⟩
  · rintro rfl
    exact absurd (h '[' hc) (by decide)
  · rintro rfl
    exact absurd (h '\\' hc) (by decide)

theorem isNumeric_of_mem_toDigits {n : Nat} : ∀ c ∈ Nat.toDigits 10 n, IsNumeric c :=
  fun c hc => .inl ((Json.isDigits_toDigits n).2 c hc)

theorem isNumeric_of_mem_zeros {n : Nat} : ∀ c ∈ List.replicate n '0', IsNumeric c := by
  intro c hc
  rw [List.eq_of_mem_replicate hc]
  decide

theorem isNumeric_of_mem_kept {n : Nat} : ∀ c ∈ Json.kept (Nat.toDigits 10 n), IsNumeric c := by
  intro c hc
  obtain ⟨z, hz⟩ := Json.exists_kept_append (Nat.toDigits 10 n)
  refine isNumeric_of_mem_toDigits (n := n) c ?_
  rw [hz]
  exact List.mem_append_left _ hc

theorem isNumeric_of_mem_digits (layout : Layout) (d : Decimal) :
    ∀ c ∈ layout.digits d, IsNumeric c := by
  have hds : ∀ c ∈ (if (Json.kept (Nat.toDigits 10 d.coefficient)).isEmpty then ['0']
      else Json.kept (Nat.toDigits 10 d.coefficient)), IsNumeric c := by
    split
    · exact List.forall_mem_singleton.mpr (by decide)
    · exact isNumeric_of_mem_kept
  unfold Layout.digits
  dsimp only
  rw [← Json.kept]
  generalize (if (Json.kept (Nat.toDigits 10 d.coefficient)).isEmpty then ['0']
    else Json.kept (Nat.toDigits 10 d.coefficient)) = ds at hds ⊢
  split
  · split
    · -- below one: a point and zeros before the digits
      simp only [List.cons_append, List.forall_mem_cons, List.forall_mem_append]
      exact ⟨by decide, by decide, isNumeric_of_mem_zeros, hds⟩
    · -- the point among the digits or behind them
      simp only [List.forall_mem_cons, List.forall_mem_append]
      refine ⟨⟨fun c hc => hds c (List.mem_of_mem_take hc), isNumeric_of_mem_zeros⟩, by decide, ?_⟩
      split
      · exact List.forall_mem_singleton.mpr (by decide)
      · exact fun c hc => hds c (List.mem_of_mem_drop hc)
  · -- an exponent behind the digits
    simp only [List.forall_mem_cons, List.forall_mem_append]
    refine ⟨⟨?_, by decide, ?_, isNumeric_of_mem_zeros⟩, isNumeric_of_mem_toDigits⟩
    · split
      · exact hds
      · obtain ⟨hfirst, hrest⟩ := List.forall_mem_cons.mp hds
        exact List.forall_mem_cons.mpr ⟨hfirst, List.forall_mem_cons.mpr ⟨by decide, hrest⟩⟩
      · simp
    · split <;> decide

theorem plain_signText (negative : Bool) : Plain (Binary64.signText negative) := by
  cases negative <;> decide

theorem plain_text (x : Binary64) : Plain x.text := by
  unfold Binary64.text Binary64.written
  split
  · decide
  · exact (plain_signText _).append (by decide)
  · refine (plain_signText _).append (.of_isNumeric ?_)
    rw [String.toList_ofList]
    exact isNumeric_of_mem_digits _ _

theorem plain_toString (n : Nat) : Plain (toString n) := by
  refine .of_isNumeric ?_
  rw [Nat.toString_eq_ofList_toDigits, String.toList_ofList]
  exact isNumeric_of_mem_toDigits

theorem plain_fixed (places : Nat) (x : Binary64) : Plain (x.fixed places) := by
  unfold Binary64.fixed
  split
  · decide
  · exact (plain_signText _).append (by decide)
  · refine (((plain_signText _).append (plain_toString _)).append (by decide)).append
      (.of_isNumeric ?_)
    simp only [String.toList_ofList, List.forall_mem_append]
    exact ⟨isNumeric_of_mem_zeros, isNumeric_of_mem_toDigits⟩

theorem plain_whole {n : Int} {s : String} (h : Whole.text n = .ok s) : Plain s := by
  obtain ⟨-, rfl⟩ := Whole.text_eq_ok_iff.mp h
  cases n with
  | ofNat n => exact plain_toString n
  | negSucc n => exact (by decide : Plain "-").append (plain_toString (n + 1))

theorem plain_shown {q : Option Quantity} {s : String} (h : Quantity.shown q = .ok s) :
    Plain s := by
  cases q with
  | none =>
      cases h
      decide
  | some q =>
      cases q with
      | whole n => exact plain_whole (mapError_eq_ok_iff.mp h)
      | measured x =>
          cases h
          exact plain_text x

/-! ### Addresses -/

theorem Plain.drop {s : String} (h : Plain s) (n : Nat) :
    Plain (String.ofList (s.toList.drop n)) where
  chain := by
    rw [String.toList_ofList]
    exact h.chain.suffix (List.drop_suffix n _)
  last := by
    intro c hc
    rw [String.toList_ofList, List.getLast?_drop] at hc
    split at hc
    · cases hc
    · exact h.last c hc

/-- The dots behind the front of a text keep its last character from becoming a part of a tag. -/
theorem Plain.take_append_dots {s : String} (h : Plain s) (n : Nat) :
    Plain (String.ofList (s.toList.take n) ++ "...") where
  chain := by
    have hfront := List.IsChain.prefix h.chain (List.take_prefix n s.toList)
    rw [String.toList_append, String.toList_ofList, List.isChain_append]
    refine ⟨hfront, by decide, fun c _ d hd htag => ?_⟩
    obtain rfl : '.' = d := by simpa using hd
    exact absurd htag.2 (by decide)
  last := by
    intro c hc
    rw [String.toList_append, List.getLast?_append_of_ne_nil _ (by decide)] at hc
    obtain rfl : '.' = c := by simpa using hc
    decide

theorem plain_short {address : String} (h : Plain address) (ends : Int) :
    Plain (Address.short address ends) := by
  unfold Address.short
  dsimp only
  split
  · exact h
  · exact (h.take_append_dots _).append (h.drop _)

theorem plain_contractName {address : String} (h : Plain address) :
    Plain (Address.contractName (some address)) :=
  .append (.append (by decide) (plain_short h 4)) (by decide)

end Markup

end ContractSurvey
