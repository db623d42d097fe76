/-!
# Text — Line

The lines of a text that is written with a line feed behind it.  Besides the line feed, a carriage
return, the ASCII controls that separate and the Unicode separators of lines and paragraphs break a
line; a carriage return and a line feed are one break.
-/

namespace ContractSurvey.Text

/-- A character that ends a line. -/
def isBreak (c : Char) : Bool :=
  let n := c.toNat
  (10 ≤ n && n ≤ 13) || (28 ≤ n && n ≤ 30) || n == 0x85 || n == 0x2028 || n == 0x2029

/-- The last line of a text with a line feed behind it. -/
def lastLine (cs : List Char) : List Char :=
  let cs := if cs.getLast? = some '\r' then cs.dropLast else cs
  (cs.reverse.takeWhile fun c => !isBreak c).reverse

theorem isBreak_of_mem_lastLine {cs : List Char} {c : Char} (h : c ∈ lastLine cs) :
    isBreak c = false := by
  have := List.all_eq_true.1 List.all_takeWhile c (List.mem_reverse.1 h)
  simpa using this

/-- A text without breaks is a line. -/
theorem lastLine_eq_self {cs : List Char} (h : ∀ c ∈ cs, isBreak c = false) :
    lastLine cs = cs := by
  have hr : cs.getLast? ≠ some '\r' := fun e =>
    absurd (h _ (List.mem_of_getLast? e)) (by decide)
  have hb : ∀ c ∈ cs.reverse, (!isBreak c) = true := fun c hc => by
    rw [h c (List.mem_reverse.1 hc)]
    rfl
  have ht : (cs.reverse.takeWhile fun c => !isBreak c) = cs.reverse := by
    have := @List.takeWhile_append_of_pos _ _ _ [] hb
    simpa only [List.append_nil, List.takeWhile_nil] using this
  simp [lastLine, hr, ht]

end ContractSurvey.Text
