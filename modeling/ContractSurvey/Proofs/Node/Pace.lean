import ContractSurvey.Node.Record
import ContractSurvey.Proofs.Node.Batch
import Mathlib.Algebra.Order.Group.Defs
import Mathlib.Algebra.Order.Ring.Rat
import Mathlib.Data.List.Chain
import Mathlib.Tactic.Abel

/-!
# Proofs — Node — Pace

How fast a fetcher asks.  A run is any sequence of calls with time passing in between (`Call`,
`Fetcher.run`).  What a line notes as the time of its last question is the time of the last question
among its events, and successive questions lie at least the interval apart; `Line.IsPaced` says
both, and every question keeps it (`isPaced_ask`), so every run does (`isPaced_run`).

The main statement is `run_paced`: after any run the questions so far are apart, and the next one is
asked at once if the interval has passed and else after a pause for exactly what is missing
(`Asked`).  An address in a bad form leaves the line as it is.  Time may be any ordered group; that
it does not go backwards is never needed, for a pause makes up for it.
-/

namespace ContractSurvey

/-! ### The times of questions -/

section Times

variable {τ : Type}

/-- When a question was asked. -/
def Event.time? : Event τ → Option τ
  | .asked t _ => some t
  | .slept _ => none

/-- When the questions among some events were asked. -/
def times (events : List (Event τ)) : List τ := events.filterMap (·.time?)

/-- When the last question among some events was asked, zero if there is none. -/
def lastTime [Zero τ] (events : List (Event τ)) : τ := (times events).getLastD 0

@[simp] theorem times_append (es fs : List (Event τ)) : times (es ++ fs) = times es ++ times fs :=
  List.filterMap_append

@[simp] theorem times_asked (t : τ) (q : Question) (es : List (Event τ)) :
    times (.asked t q :: es) = t :: times es := rfl

@[simp] theorem times_slept (d : τ) (es : List (Event τ)) : times (.slept d :: es) = times es := rfl

@[simp] theorem pauses_append (es fs : List (Event τ)) :
    pauses (es ++ fs) = pauses es ++ pauses fs := List.filterMap_append

@[simp] theorem pauses_asked (t : τ) (q : Question) (es : List (Event τ)) :
    pauses (.asked t q :: es) = pauses es := rfl

@[simp] theorem pauses_slept (d : τ) (es : List (Event τ)) :
    pauses (.slept d :: es) = d :: pauses es := rfl

@[simp] theorem times_nil : times ([] : List (Event τ)) = [] := rfl

@[simp] theorem pauses_nil : pauses ([] : List (Event τ)) = [] := rfl

end Times

variable {σ τ : Type} [AddCommGroup τ] [LinearOrder τ]

/-! ### One question -/

namespace Line

/-- A line before its first question. -/
def fresh (clock : τ) (node : σ) : Line σ τ := ⟨clock, 0, node, []⟩

/-- The line notes the time of its last question, the questions lie at least the interval apart,
the first one from time zero, and nobody pauses for nothing. -/
structure IsPaced (interval : τ) (l : Line σ τ) : Prop where
  last : l.lastQuestion = lastTime l.events
  apart : (0 :: times l.events).IsChain fun t u => interval ≤ u - t
  pauses_pos : ∀ d ∈ pauses l.events, 0 < d

/-- A question on a line: at once if the interval has passed since the last one, and else after a
pause for exactly what is missing.  Then the node takes its time to answer. -/
inductive Asked (interval : τ) (q : Question) (latency : τ) (l l' : Line σ τ) : Prop where
  | atOnce (passed : interval ≤ l.clock - lastTime l.events)
      (clock : l'.clock = l.clock + latency)
      (events : l'.events = l.events ++ [.asked l.clock q])
  | paused (short : l.clock - lastTime l.events < interval)
      (clock : l'.clock = lastTime l.events + interval + latency)
      (events : l'.events = l.events ++
        [.slept (interval - (l.clock - lastTime l.events)),
         .asked (lastTime l.events + interval) q])

variable {interval : τ} {l : Line σ τ}

theorem pause_of_passed (h : interval ≤ l.clock - l.lastQuestion) :
    l.pause interval = { l with lastQuestion := l.clock } := if_neg h.not_gt

theorem pause_of_short (h : l.clock - l.lastQuestion < interval) :
    l.pause interval =
      { l with
        clock := l.lastQuestion + interval
        lastQuestion := l.lastQuestion + interval
        events := l.events ++ [.slept (interval - (l.clock - l.lastQuestion))] } := by
  have hclock : l.clock + (interval - (l.clock - l.lastQuestion)) = l.lastQuestion + interval := by
    abel
  simp only [pause, if_pos h, advance, hclock]

theorem isPaced_fresh (interval clock : τ) (node : σ) : (fresh clock node).IsPaced interval :=
  ⟨rfl, List.isChain_singleton _, fun _ h => absurd h List.not_mem_nil⟩

variable {α : Type}

theorem asked_ask (h : l.IsPaced interval) (q : Question) (answer : σ → Reply τ α × σ) :
    Asked interval q (answer l.node).1.latency l (l.ask interval q answer).2 := by
  rcases le_or_gt interval (l.clock - l.lastQuestion) with hle | hlt
  · rw [ask, pause_of_passed hle]
    exact .atOnce (h.last ▸ hle) rfl rfl
  · rw [ask, pause_of_short hlt, h.last]
    rw [h.last] at hlt
    exact .paused hlt rfl (by rw [List.append_assoc]; rfl)

theorem apart_concat {ts : List τ} {t : τ}
    (h : (0 :: ts).IsChain fun t u => interval ≤ u - t) (ht : interval ≤ t - ts.getLastD 0) :
    (0 :: (ts ++ [t])).IsChain fun t u => interval ≤ u - t := by
  rw [← List.cons_append]
  refine List.isChain_append.mpr ⟨h, List.isChain_singleton t, fun last hlast u hu => ?_⟩
  obtain rfl : t = u := by simpa using hu
  have hlast : ts.getLastD 0 = last := by simpa [List.getLast?_cons] using hlast
  rwa [← hlast]

variable [IsOrderedAddMonoid τ]

/-- A question leaves the line paced. -/
theorem isPaced_ask (h : l.IsPaced interval) (q : Question) (answer : σ → Reply τ α × σ) :
    (l.ask interval q answer).2.IsPaced interval := by
  rcases le_or_gt interval (l.clock - l.lastQuestion) with hle | hlt
  · rw [ask, pause_of_passed hle]
    rw [h.last] at hle
    exact ⟨by simp [lastTime], by simpa using apart_concat h.apart hle, by simpa using h.pauses_pos⟩
  · rw [ask, pause_of_short hlt]
    have hpause : 0 < interval - (l.clock - l.lastQuestion) := sub_pos.mpr hlt
    have hapart : interval ≤ lastTime l.events + interval - lastTime l.events :=
      (add_sub_cancel_left _ interval).ge
    refine ⟨by simp [lastTime], ?_, ?_⟩
    · simpa [h.last] using apart_concat h.apart hapart
    · simp only [pauses_append, pauses_slept, pauses_asked, pauses_nil, List.forall_mem_append,
        List.forall_mem_singleton]
      exact ⟨⟨h.pauses_pos, hpause⟩, by simp⟩

end Line

/-! ### A run -/

/-- What a fetcher is called for, and the passing of time between the calls. -/
inductive Call (τ : Type) where
  | advance (duration : τ)
  | code (address : String) (block : Option Block)
  | codes (addresses : List String) (block : Option Block)
  | networkName

/-- The call without the addresses that have no checksum form. -/
def Call.wellFormed (checksum : String → Except String String) : Call τ → Call τ
  | .code a block => .codes ([a].filter fun a => (checksum a).isOk) block
  | .codes as block => .codes (as.filter fun a => (checksum a).isOk) block
  | c => c

namespace Fetcher

/-- The line after a call. -/
def call (f : Fetcher σ τ) (l : Line σ τ) : Call τ → Line σ τ
  | .advance d => l.advance d
  | .code a block => (f.code a block l).2
  | .codes as block => (f.codes as block l).2
  | .networkName => (f.networkName l).2

/-- The line after some calls, one after the other. -/
def run (f : Fetcher σ τ) (l : Line σ τ) (calls : List (Call τ)) : Line σ τ := calls.foldl f.call l

variable {f : Fetcher σ τ} {l : Line σ τ}

/-- A batch is a run of single addresses. -/
theorem codes_line (as : List String) (block : Option Block) (l : Line σ τ) :
    (f.codes as block l).2 = f.run l (as.map fun a => .code a block) := by
  rw [codes, extend_line, run, List.foldl_map]
  rfl

/-- Addresses in a bad form leave no trace in a batch. -/
theorem codes_filter (as : List String) (block : Option Block) (l : Line σ τ) :
    (f.codes (as.filter fun a => (f.checksum a).isOk) block l).2 =
      (f.codes as block l).2 := by
  rw [codes, codes, extend_line, extend_line]
  induction as generalizing l with
  | nil => rfl
  | cons a as ih =>
      cases h : f.checksum a with
      | ok c =>
          rw [List.filter_cons_of_pos (by rw [h]; rfl)]
          exact ih _
      | error e =>
          rw [List.filter_cons_of_neg (by rw [h]; exact Bool.false_ne_true), ih,
            List.foldl_cons, code_of_error h]

theorem call_wellFormed (l : Line σ τ) (c : Call τ) :
    f.call l (c.wellFormed f.checksum) = f.call l c := by
  cases c with
  | advance d => rfl
  | code a block => exact codes_filter [a] block l
  | codes as block => exact codes_filter as block l
  | networkName => rfl

theorem run_wellFormed (l : Line σ τ) (calls : List (Call τ)) :
    f.run l (calls.map (·.wellFormed f.checksum)) = f.run l calls := by
  rw [run, List.foldl_map]
  simp only [call_wellFormed]
  rfl

variable [IsOrderedAddMonoid τ]

theorem isPaced_code (h : l.IsPaced f.interval) (a : String) (block : Option Block) :
    (f.code a block l).2.IsPaced f.interval := by
  cases ha : f.checksum a with
  | error e => rwa [code_of_error ha]
  | ok c =>
      rw [code_of_ok ha]
      exact Line.isPaced_ask h _ _

theorem isPaced_call (h : l.IsPaced f.interval) (c : Call τ) :
    (f.call l c).IsPaced f.interval := by
  cases c with
  | advance d => exact ⟨h.last, h.apart, h.pauses_pos⟩
  | code a block => exact isPaced_code h a block
  | codes as block =>
      rw [call, codes, extend_line]
      induction as generalizing l with
      | nil => exact h
      | cons a as ih => exact ih (isPaced_code h a block)
  | networkName => exact Line.isPaced_ask h _ _

theorem isPaced_run (h : l.IsPaced f.interval) (calls : List (Call τ)) :
    (f.run l calls).IsPaced f.interval := by
  induction calls generalizing l with
  | nil => exact h
  | cons c calls ih => exact ih (isPaced_call h c)

/-- **The pace of a fetcher.**  After any run from a fresh line, the questions so far lie at least
the interval apart and every pause was for some time.  The next question is asked at once or after a
pause for exactly what is missing.  An address in a bad form changes nothing, neither now nor, left
out of the run, at any later time; and a batch is a run of its addresses, so all this holds inside
it too. -/
theorem run_paced {f : Fetcher σ τ} {clock : τ} {node : σ} {calls : List (Call τ)} {l : Line σ τ}
    (hl : f.run (Line.fresh clock node) calls = l) :
    ((0 :: times l.events).IsChain fun t u => f.interval ≤ u - t) ∧
    (∀ d ∈ pauses l.events, 0 < d) ∧
    (∀ a c block, f.checksum a = .ok c →
      l.Asked f.interval (.code c (f.blockFor block))
        (f.node.code c (f.blockFor block) l.node).1.latency (f.code a block l).2) ∧
    l.Asked f.interval .chain (f.node.chain l.node).1.latency (f.networkName l).2 ∧
    (∀ a block, (f.checksum a).isOk = false → (f.code a block l).2 = l) ∧
    (∀ as block, (f.codes as block l).2 = f.run l (as.map fun a => .code a block)) ∧
    f.run (Line.fresh clock node) (calls.map (·.wellFormed f.checksum)) = l := by
  have hpaced : l.IsPaced f.interval := hl ▸ isPaced_run (Line.isPaced_fresh _ clock node) calls
  refine ⟨hpaced.apart, hpaced.pauses_pos, fun a c block ha => ?_, Line.asked_ask hpaced _ _,
    fun a block ha => ?_, fun as block => codes_line as block l, ?_⟩
  · rw [code_of_ok ha]
    exact Line.asked_ask hpaced _ _
  · cases h : f.checksum a with
    | ok c =>
        rw [h] at ha
        cases ha
    | error e => rw [code_of_error h]
  · rw [run_wellFormed, hl]

/-! ### A slow node -/

/-- Takes a tenth of a second for a code and fails to name its chain. -/
def slow : Fetcher Unit ℚ where
  node :=
    { code := fun _ _ s => (⟨.ok [0x60], 1 / 10⟩, s)
      chain := fun s => (⟨.error ⟨.timeout, "no answer"⟩, 3⟩, s) }
  interval := 1 / 4
  defaultBlock := .tag "latest"
  checksum := Address.checksumText

/-- Two codes with an address in a bad form between them, then the chain twice. -/
def slowCalls : List (Call ℚ) :=
  [.codes ["0xaaaaaaaaaaaaaaaaaaaaaaaaaaaaaaaaaaaaaaaa", "0xaa",
    "0xaaaaaaaaaaaaaaaaaaaaaaaaaaaaaaaaaaaaaaaa"] none, .networkName, .networkName]

/-- What the calls leave behind. -/
def slowLine : Line Unit ℚ := slow.run (Line.fresh 1000 ()) slowCalls

/-- Only the last question comes without a pause: the one before it took three seconds. -/
theorem run_paced_slow : slow.run (Line.fresh 1000 ()) slowCalls = slowLine ∧
    times slowLine.events = [1000, 4001 / 4, 2001 / 2, 2007 / 2] ∧
    pauses slowLine.events = [3 / 20, 3 / 20] ∧
    (0 :: times slowLine.events).IsChain fun t u => (1 / 4 : ℚ) ≤ u - t := by
  have hrun : slow.run (Line.fresh 1000 ()) slowCalls = slowLine := rfl
  exact ⟨hrun, by decide +kernel, by decide +kernel, (run_paced hrun).1⟩

end Fetcher

end ContractSurvey
