import ContractSurvey.Proofs.Bytecode.Selectors
import ContractSurvey.Proofs.Bytecode.Sweep
import ContractSurvey.Proofs.Number.Order
import ContractSurvey.Proofs.Profile.Pattern
import ContractSurvey.Proofs.Sequence.Outcome
import Mathlib.Data.List.Perm.Subperm

/-!
# Proofs — Profile — Checked

Every step of making a profile stays within its domain.  `Checked` makes the profile once more,
step by step, and each step that is not defined everywhere names its fault and stops there: reading
a text as bytes, reading a byte at a position, taking a logarithm, a share or a whole number, and
looking up a place in the dictionary.  One lemma for each part says that no step of it stops, and
that what it gives is the part of `Profile.ofCode` (`hash_eq`, `opcodeFlags_eq`, `classify_eq`,
`followed_eq`, `score_eq`).

The main statement is `profile_eq_ofCode`: the only fault that is ever met is the refusal of a code
without text, whatever the text of the code is.
-/

namespace ContractSurvey

/-! ### No code -/

namespace Bytecode

/-- No code: none is handed in, or a text that is nothing but blanks and a mark. -/
def IsVacant : Option String → Prop
  | none => True
  | some s => Text.lowerChars (Text.trim s.toList) = [] ∨
      Text.lowerChars (Text.trim s.toList) = ['0', 'x']

theorem isEmpty_iff {code : Option String} : isEmpty code = true ↔ IsVacant code := by
  cases code with
  | none => simp [isEmpty, text, IsVacant]
  | some s =>
      rw [isEmpty, text, normalize, IsVacant, List.isEmpty_iff]
      unfold dropMark
      split
      · next heq => simp [heq]
      · next hmark =>
          constructor
          · exact .inl
          · rintro (h | h)
            · exact h
            · exact absurd h (hmark [])

end Bytecode

/-! ### Steps that are not defined everywhere -/

namespace Checked

/-- What can go wrong while a profile is made. -/
inductive Fault where
  /-- The code is refused. -/
  | refused (e : SurveyError)
  /-- The text is not one of whole bytes. -/
  | text (cs : List Char)
  /-- No byte stands at the position. -/
  | position (i : Nat)
  /-- The dictionary has no place for the selector. -/
  | place (s : Selector)
  /-- A share of nothing. -/
  | share (found : Nat)
  /-- A size without a logarithm. -/
  | logarithm (size : Nat)
  /-- A whole number beyond the doubles. -/
  | range (e : RangeError)
  /-- A double without a nearest whole number. -/
  | whole (x : Binary64)

/-- The result of a step, or the fault where there is none. -/
def orFault {α : Type} (f : Fault) : Option α → Except Fault α
  | some a => .ok a
  | none => .error f

@[simp] theorem orFault_some {α : Type} (f : Fault) (a : α) : orFault f (some a) = .ok a := rfl

def bytes (cs : List Char) : Except Fault (List UInt8) := orFault (.text cs) (Hex.bytes? cs)

def byteAt (code : List UInt8) (i : Nat) : Except Fault UInt8 := orFault (.position i) code[i]?

def placeOf (s : Selector) : Except Fault Nat :=
  orFault (.place s) (Signature.dictionary.findIdx? (·.selector = s))

def share (found total : Nat) : Except Fault Binary64 :=
  if total = 0 then .error (.share found) else .ok ((found : Binary64) / (total : Binary64))

def logarithm (size : Nat) : Except Fault Binary64 :=
  orFault (.logarithm size) (log10? (Binary64.ofInt size))

def converted (n : Int) : Except Fault Binary64 := (Binary64.converted n).mapError .range

def whole (x : Binary64) : Except Fault Int := orFault (.whole x) x.round?

/-! ### Bytes -/

def hash (code : Option String) : Except Fault String := do
  let bs ← bytes (Bytecode.hexPart (Bytecode.text code))
  return String.ofList (Hex.ofBytes (Sha256.digest bs))

/-- The opcodes from a position on, each read at its own position. -/
def startsAt (code : List UInt8) (i : Nat) : Except Fault (List UInt8) :=
  if _h : i < code.length then do
    let op ← byteAt code i
    let rest ← startsAt code (i + Opcode.immediateSize op + 1)
    return op :: rest
  else return []
termination_by code.length - i

def opcodeFlags (code : Option String) : Except Fault (List String) := do
  let bs ← bytes (Bytecode.hexPart (Bytecode.text code))
  let ops ← startsAt bs 0
  let counts := tally (ops.map Opcode.name)
  return Opcode.notable.filter fun name => 0 < (counts.get? name).getD 0

theorem bytes_hexPart (cs : List Char) : bytes (Bytecode.hexPart cs) = .ok (Bytecode.bytes cs) := by
  obtain ⟨bs, hbs⟩ := Option.isSome_iff_exists.mp (Bytecode.isSome_bytes?_hexPart cs)
  rw [bytes, Bytecode.bytes, hbs, orFault_some, Option.getD_some]

theorem hash_eq (code : Option String) : hash code = .ok (Bytecode.hash code) := by
  rw [hash, bytes_hexPart, ok_bind, pure_eq_ok, Bytecode.hash]

/-- Going from position to position finds the same opcodes, and never reads behind the end. -/
theorem startsAt_eq (code : List UInt8) (i : Nat) :
    startsAt code i = .ok (Bytecode.startsFrom 0 (code.drop i)) := by
  fun_induction startsAt code i with
  | case1 i h ih =>
      have hread : byteAt code i = .ok code[i] := by
        rw [byteAt, List.getElem?_eq_getElem h, orFault_some]
      rw [hread, ok_bind, ih, ok_bind, pure_eq_ok, Bytecode.startsFrom_getElem h,
        Nat.add_right_comm]
  | case2 i h =>
      rw [List.drop_eq_nil_of_le (Nat.not_lt.mp h)]
      rfl

theorem opcodeFlags_eq (code : Option String) :
    opcodeFlags code = .ok (Bytecode.opcodeFlags code) := by
  rw [opcodeFlags, bytes_hexPart, ok_bind, startsAt_eq, ok_bind, pure_eq_ok, List.drop_zero,
    Bytecode.opcodeFlags, Bytecode.opcodeCounts, Bytecode.instructions]

/-! ### Patterns -/

/-- The known functions with their places in the dictionary, the most certain first. -/
def classify (candidates : List Selector) (code : Option String) : Except Fault (List Pattern) := do
  let cs := Bytecode.text code
  let known := (Sequence.distinct (candidates.map Text.lower)).filterMap Signature.lookup?
  let placed ← (known.map (Pattern.ofSignature cs)).mapM fun p => do
    let place ← placeOf p.selector
    return (p, place)
  let ranked := placed.mergeSort fun a b =>
    b.1.confidence < a.1.confidence ||
      (!decide (a.1.confidence < b.1.confidence) && a.2 ≤ b.2)
  return ranked.map Prod.fst

theorem placeOf_eq {s : Selector} {e : Signature} (h : Signature.lookup? s = some e) :
    placeOf s = .ok (Signature.rank s) := by
  obtain ⟨hmem, hselector⟩ := Signature.lookup?_eq_some h
  have hplace : Signature.dictionary.findIdx? (·.selector = s) = some (Signature.rank s) :=
    List.findIdx?_eq_some_iff_findIdx_eq.mpr
      ⟨List.findIdx_lt_length_of_exists ⟨e, hmem, decide_eq_true hselector⟩, rfl⟩
  rw [placeOf, hplace, orFault_some]

theorem classify_eq (candidates : List Selector) (code : Option String) :
    classify candidates code = .ok (Pattern.classify candidates code) := by
  rw [classify, Pattern.classify]
  generalize hknown : ((Sequence.distinct (candidates.map Text.lower)).filterMap
    Signature.lookup?).map (Pattern.ofSignature (Bytecode.text code)) = known
  -- every selector that is looked up comes from an entry of the dictionary
  have hplaces : ∀ p ∈ known, placeOf p.selector = .ok (Signature.rank p.selector) := by
    intro p hp
    rw [← hknown, List.mem_map] at hp
    obtain ⟨e, he, rfl⟩ := hp
    obtain ⟨s, -, hs⟩ := List.mem_filterMap.mp he
    have hselector : e.selector = s := (Signature.lookup?_eq_some hs).2
    exact placeOf_eq (hselector ▸ hs)
  have hplaced : (known.mapM fun p => do
      let place ← placeOf p.selector
      return (p, place)) = .ok (known.map fun p => (p, Signature.rank p.selector)) :=
    mapM_eq_ok fun p hp => by rw [hplaces p hp, ok_bind, pure_eq_ok]
  -- the order on pairs of a pattern and its place is the order on the patterns
  rw [hplaced, ok_bind, pure_eq_ok, List.map_mergeSort (s := Pattern.ranksBefore)]
  · rw [List.map_map]
    exact congrArg (fun ps => Except.ok (List.mergeSort ps Pattern.ranksBefore)) (List.map_id known)
  · intro a ha b hb
    obtain ⟨p, -, rfl⟩ := List.mem_map.mp ha
    obtain ⟨q, -, rfl⟩ := List.mem_map.mp hb
    rfl

/-! ### Standards -/

def compliance? (s : TokenStandard) (found : List Selector) : Except Fault (Option Compliance) := do
  let x ← share (s.required.filter (· ∈ found)).length s.required.length
  let rounded ← whole (x * 100)
  let percent := (max 0 (min 100 rounded)).toNat
  if percent = 0 then return none
  else
    return some
      { standard := s.name
        percent := some (.whole percent)
        missing := (s.required.filter (· ∉ found)).map Signature.nameOf
        extra := (s.optional.filter (· ∈ found)).map Signature.nameOf }

def followed (patterns : List Pattern) : Except Fault (List Compliance) := do
  let reports ← TokenStandard.all.mapM fun s => compliance? s (patterns.map (·.selector))
  return reports.filterMap id

/-- No standard is without required functions, and every share of them is a finite percentage. -/
theorem isSome_round?_share : ∀ s ∈ TokenStandard.all, s.required.length ≠ 0 ∧
    ∀ n ≤ s.required.length,
      ((n : Binary64) / ((s.required.length : Nat) : Binary64) * 100).round?.isSome = true := by
  decide +kernel

theorem compliance?_eq {s : TokenStandard} (hs : s ∈ TokenStandard.all) (found : List Selector) :
    compliance? s found = .ok (s.compliance? found) := by
  obtain ⟨hne, hshare⟩ := isSome_round?_share s hs
  obtain ⟨k, hk⟩ := Option.isSome_iff_exists.mp
    (hshare (s.required.filter (· ∈ found)).length (List.length_filter_le _ _))
  rw [compliance?, share, if_neg hne, TokenStandard.compliance?, TokenStandard.wholePercent]
  rw [ok_bind, whole, hk, orFault_some, ok_bind]
  dsimp only [Option.getD_some]
  split
  · rfl
  · rfl

theorem followed_eq (patterns : List Pattern) :
    followed patterns = .ok (TokenStandard.followed patterns) := by
  rw [followed, mapM_eq_ok fun s hs => compliance?_eq hs (patterns.map (·.selector)),
    TokenStandard.followed, ok_bind, pure_eq_ok, List.filterMap_map, Function.id_comp]

/-! ### Score -/

/-- The number in the range from 0 to 100 that is nearest. -/
def clamped (x : Binary64) : Binary64 :=
  let x := if x < 100 then x else 100
  if 0 < x then x else 0

/-- What the size adds; of size zero no logarithm is taken. -/
def sizePart (size : Nat) : Except Fault Binary64 :=
  if 0 < size then (logarithm size).map (· * 10) else .ok 0

def score (size : Nat) (patterns : List Pattern) : Except Fault Int := do
  let part ← sizePart size
  let functions ← converted (2 * patterns.length)
  let x := part + functions
  let x := if patterns.any (·.category = .proxy) then x * 0.7 else x
  let x := if patterns.any (·.category = .deFi) then x * 1.3 else x
  whole (clamped x)

/-- A size other than zero has a logarithm. -/
theorem sizePart_eq (size : Nat) :
    sizePart size = .ok (Complexity.sizePart (Binary64.ofInt size)) := by
  rw [sizePart, Complexity.sizePart]
  split
  · next hpos =>
      have hsize : (0 : Binary64) < Binary64.ofInt size := Binary64.ofInt_pos (by omega)
      obtain ⟨x, hx⟩ := Option.isSome_iff_exists.mp ((log10?_isSome_iff _).mpr hsize)
      rw [logarithm, hx, orFault_some]
      rfl
  · next hzero =>
      obtain rfl : size = 0 := by omega
      have hnone : log10? (Binary64.ofInt (0 : Nat)) = none := by decide +kernel
      rw [hnone]

theorem isFinite_clamped (x : Binary64) : (clamped x).isFinite = true := by
  have hbound : (100 : Binary64).isFinite = true := by decide +kernel
  -- what is not below 100 is cut down to it, no number included
  have htop : (if x < 100 then x else 100) = 100 ∨
      (if x < 100 then x else 100) < (100 : Binary64) := by
    split
    · next hlt => exact .inr hlt
    · exact .inl rfl
  rw [clamped]
  generalize (if x < 100 then x else 100) = y at htop ⊢
  split
  · next hpos =>
      rcases htop with rfl | hlt
      · exact hbound
      · exact Binary64.isFinite_of_between hpos hlt hbound
  · decide +kernel

/-- There are few known functions, so that their number is a double. -/
theorem converted_eq {n : Nat} (h : n ≤ Signature.dictionary.length) :
    converted (2 * n) = .ok (Binary64.ofInt (2 * n)) := by
  have hfew := Signature.length_dictionary_lt
  have hsmall : (2 * n : Int).natAbs < 2 ^ 11 * 1 := by omega
  have hfinite : (Binary64.ofInt (2 * n)).isFinite = true :=
    Binary64.isFinite_nearest_mul_one _ (by decide) hsmall
  rw [converted, Binary64.converted, if_pos hfinite]
  rfl

theorem score_eq {size : Nat} {patterns : List Pattern}
    (h : patterns.length ≤ Signature.dictionary.length) :
    score size patterns = .ok (Complexity.score (Binary64.ofInt size) patterns) := by
  have hround := (Binary64.isSome_round? _).trans
    (isFinite_clamped (Complexity.raw (Binary64.ofInt size) patterns))
  obtain ⟨k, hk⟩ := Option.isSome_iff_exists.mp hround
  have hscore : Complexity.score (Binary64.ofInt size) patterns = k := by
    show (clamped (Complexity.raw _ _)).round?.getD 0 = k
    rw [hk, Option.getD_some]
  rw [score, sizePart_eq, ok_bind, converted_eq h, ok_bind]
  show orFault _ (clamped (Complexity.raw (Binary64.ofInt size) patterns)).round? = _
  rw [hk, orFault_some, hscore]

/-! ### Profiles -/

def profile (address : String) (code name : Option String) : Except Fault Profile :=
  if Bytecode.isEmpty code then .error (.refused (.emptyCode address))
  else do
    let selectors := Bytecode.selectors code
    let patterns ← classify selectors code
    let size := Bytecode.size code
    let hash ← hash code
    let standards ← followed patterns
    let complexity ← score size patterns
    let opcodeFlags ← opcodeFlags code
    return {
      address
      name := some (Profile.contractName address name)
      size := some (.whole size)
      codeHash := some hash
      candidates := some (.whole selectors.length)
      patterns
      standards
      security := Feature.security patterns
      proxyKind := Feature.proxyKind? patterns
      complexity := some (.whole complexity)
      gas := Feature.gas patterns code
      opcodeFlags
      trailer := Bytecode.trailer? code : Profile }

/-- No more functions are recognised than are known. -/
theorem length_classify_le (candidates : List Selector) (code : Option String) :
    (Pattern.classify candidates code).length ≤ Signature.dictionary.length := by
  have hsubset : (Pattern.classify candidates code).map (·.selector) ⊆
      Signature.dictionary.map (·.selector) := by
    intro t ht
    obtain ⟨q, hq, rfl⟩ := List.mem_map.mp ht
    obtain ⟨_, -, e, he, rfl⟩ := Profile.mem_classify.mp hq
    exact List.mem_map_of_mem (Signature.lookup?_eq_some he).1
  simpa using
    (List.subperm_of_subset (Profile.nodup_selectors_classify candidates code) hsubset).length_le

/-- **Profiles are defined.**  Making a profile step by step comes to the profile, or to the refusal
of the code; no step is taken outside its domain, and the code is refused exactly if there is
none.  What is read as bytes is a text of whole bytes. -/
theorem profile_eq_ofCode (address : String) (code name : Option String) :
    profile address code name = (Profile.ofCode address code name).mapError .refused ∧
    (∀ f, profile address code name = .error f ↔
      f = .refused (.emptyCode address) ∧ Bytecode.IsVacant code) ∧
    (Bytecode.hexPart (Bytecode.text code)).length % 2 = 0 ∧
    (Bytecode.hexPart (Bytecode.text code)).all Hex.isDigit = true := by
  have heq : profile address code name = (Profile.ofCode address code name).mapError .refused := by
    rw [profile, Profile.ofCode]
    split
    · rfl
    · dsimp only
      rw [classify_eq, ok_bind, hash_eq, ok_bind, followed_eq, ok_bind,
        score_eq (length_classify_le _ code), ok_bind, opcodeFlags_eq, ok_bind]
      rfl
  have hdigits : (Bytecode.hexPart (Bytecode.text code)).all Hex.isDigit = true :=
    List.all_eq_true.mpr fun _ hc => Bytecode.isDigit_of_mem_hexPart hc
  refine ⟨heq, fun f => ?_, Bytecode.length_hexPart _, hdigits⟩
  rw [heq, ← Bytecode.isEmpty_iff, Profile.ofCode]
  split
  · next hempty => simp [Except.mapError, hempty, eq_comm]
  · next hempty => simp [Except.mapError, hempty]

end Checked

end ContractSurvey
