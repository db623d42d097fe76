import ContractSurvey.CommandLine.Run

/-!
# Proofs — CommandLine — Screen

Showing things one after the other.  What stops it is a thing that has no text or that the screen
refuses (`withheld_of_present`); without one, everything is shown in its order and the run goes on
(`presentThen_cases`).
-/

namespace ContractSurvey.CommandLine

variable {σ : Type} {s : Surroundings σ}

/-- Why something among these is not shown. -/
inductive Withheld (s : Surroundings σ) (items : List (Except QuantityError Shown)) : Failure → Prop
  | textless {e : QuantityError} (mem : .error e ∈ items) : Withheld s items (.quantity e)
  | refused {x : Shown} {message : String} (mem : .ok x ∈ items)
      (refuses : s.screen x = some message) : Withheld s items (.screen message)

namespace Withheld

variable {items : List (Except QuantityError Shown)} {failure : Failure}

theorem cons (i : Except QuantityError Shown) (h : Withheld s items failure) :
    Withheld s (i :: items) failure := by
  cases h with
  | textless mem => exact .textless (List.mem_cons_of_mem i mem)
  | refused mem refuses => exact .refused (List.mem_cons_of_mem i mem) refuses

/-- Things that are shown as they are have their texts. -/
theorem of_plainly {shown : List Shown} (h : Withheld s (plainly shown) failure) :
    ∃ x ∈ shown, ∃ message, s.screen x = some message ∧ failure = .screen message := by
  cases h with
  | textless mem =>
      obtain ⟨x, -, hx⟩ := List.mem_map.mp mem
      cases hx
  | refused mem refuses =>
      obtain ⟨x, hx, hshown⟩ := List.mem_map.mp mem
      obtain rfl := Except.ok.inj hshown
      exact ⟨x, hx, _, refuses, rfl⟩

theorem ne_survey (h : Withheld s items failure) (e : SurveyError) : failure ≠ .survey e := by
  cases h <;> exact nofun

end Withheld

theorem withheld_of_present {items : List (Except QuantityError Shown)} {acts : List Act}
    {failure : Failure} (h : present s items = (acts, some failure)) :
    Withheld s items failure := by
  induction items generalizing acts with
  | nil => cases h
  | cons i items ih =>
      cases i with
      | error e =>
          cases h
          exact .textless List.mem_cons_self
      | ok x =>
          rw [present] at h
          split at h
          · next message hrefused =>
              cases h
              exact .refused List.mem_cons_self hrefused
          · split at h
            next hrest =>
              cases h
              exact (ih hrest).cons _

/-- What is shown as it is and stops nothing is shown in full. -/
theorem acts_of_present {shown : List Shown} {acts : List Act}
    (h : present s (plainly shown) = (acts, none)) : acts = prints shown := by
  induction shown generalizing acts with
  | nil =>
      cases h
      rfl
  | cons x shown ih =>
      rw [plainly, List.map_cons, present] at h
      split at h
      · cases h
      · split at h
        next hrest =>
          cases h
          rw [ih hrest]
          rfl

/-- Showing something is no more than prints. -/
theorem isPrint_of_present (s : Surroundings σ) (items : List (Except QuantityError Shown)) :
    ∀ a ∈ (present s items).1, ∃ x, a = .print x := by
  induction items with
  | nil => simp [present]
  | cons i items ih =>
      cases i with
      | error e => simp [present]
      | ok x =>
          rw [present]
          split
          · simp
          · exact List.forall_mem_cons.mpr ⟨⟨x, rfl⟩, ih⟩

theorem presentThen_cons {x : Shown} (hx : s.screen x = none)
    (items : List (Except QuantityError Shown)) (next : List Act × Ending) :
    presentThen s (.ok x :: items) next =
      (.print x :: (presentThen s items next).1, (presentThen s items next).2) := by
  simp only [presentThen, present, hx]
  rcases present s items with ⟨acts, _ | failure⟩ <;> rfl

theorem presentThen_append (s : Surroundings σ) (items rest : List (Except QuantityError Shown))
    (next : List Act × Ending) :
    presentThen s (items ++ rest) next = presentThen s items (presentThen s rest next) := by
  induction items with
  | nil => rfl
  | cons i items ih =>
      cases i with
      | error e => rfl
      | ok x =>
          cases hx : s.screen x with
          | some message => simp [presentThen, present, hx]
          | none => rw [List.cons_append, presentThen_cons hx, presentThen_cons hx, ih]

/-- Something stops the run, or it goes on behind what is shown. -/
theorem presentThen_cases (s : Surroundings σ) (items : List (Except QuantityError Shown))
    (next : List Act × Ending) :
    (∃ failure, Withheld s items failure ∧
      presentThen s items next = ((present s items).1, .failed failure)) ∨
    (present s items).2 = none ∧
      presentThen s items next = ((present s items).1 ++ next.1, next.2) := by
  rw [presentThen]
  split
  · next hstop => exact .inl ⟨_, withheld_of_present hstop, by rw [hstop]⟩
  · next hgoes => exact .inr ⟨by rw [hgoes], by rw [hgoes]⟩

theorem isPrint_of_presentThen (s : Surroundings σ) (items : List (Except QuantityError Shown))
    {next : List Act × Ending} (h : ∀ a ∈ next.1, ∃ x, a = .print x) :
    ∀ a ∈ (presentThen s items next).1, ∃ x, a = .print x := by
  rcases presentThen_cases s items next with ⟨failure, -, hstop⟩ | ⟨-, hgoes⟩
  · rw [hstop]
    exact isPrint_of_present s items
  · rw [hgoes]
    exact List.forall_mem_append.mpr ⟨isPrint_of_present s items, h⟩

/-- Showing something ends nothing with a code of its own. -/
theorem exit_of_presentThen {items : List (Except QuantityError Shown)} {next : List Act × Ending}
    {code : Nat} (h : (presentThen s items next).2 = .exit code) : next.2 = .exit code := by
  rcases presentThen_cases s items next with ⟨failure, -, hstop⟩ | ⟨-, hgoes⟩
  · rw [hstop] at h
    cases h
  · rwa [hgoes] at h

end ContractSurvey.CommandLine
