import ContractSurvey.Proofs.Text.LowerCase

/-!
# Proofs — Text — Hex

Bytes and the digits that write them.  The texts of whole bytes are the ones that can be read
(`isSome_bytes?_iff`); lower-case digits are what the bytes read from them are written with
(`ofBytes_of_bytes?`), so bytes are told by their digits (`ofBytes_injective`), in parts as well as
as a whole (`ofBytes_prefix_iff`).
-/

namespace ContractSurvey.Hex

/-! ### Reading -/

/-- Texts of whole bytes, in digits of either case, are the ones that can be read as bytes. -/
theorem isSome_bytes?_iff {cs : List Char} :
    (bytes? cs).isSome = true ↔ cs.length % 2 = 0 ∧ ∀ c ∈ cs, isDigit c = true := by
  fun_induction bytes? cs with
  | case1 => simp
  | case2 c => simp
  | case3 a b rest ih =>
      have hpair : (bytes? (a :: b :: rest)).isSome = true ↔
          isDigit a = true ∧ isDigit b = true ∧ (bytes? rest).isSome = true := by
        rw [bytes?, isDigit, isDigit]
        cases value? a <;> cases value? b <;> cases bytes? rest <;> simp
      rw [← bytes?, hpair, ih]
      simp only [List.length_cons, List.forall_mem_cons]
      grind

/-- A lower-case digit is the one that its value is written with. -/
theorem digit_of_value? {c : Char} {n : Nat} (hc : isLower c = true) (hn : value? c = some n) :
    n < 16 ∧ digit n = c := by
  have hall : ∀ n ∈ value? c, n < 16 ∧ digit n = c :=
    forall_isLower (P := fun c => ∀ n ∈ value? c, n < 16 ∧ digit n = c) (by decide) hc
  exact hall n hn

/-- Bytes read from lower-case digits are written with the same digits. -/
theorem ofBytes_of_bytes? {cs : List Char} {bs : List UInt8} (hcs : ∀ c ∈ cs, isLower c = true)
    (h : bytes? cs = some bs) : ofBytes bs = cs := by
  fun_induction bytes? cs generalizing bs with
  | case1 =>
      cases h
      rfl
  | case2 => cases h
  | case3 a b rest ih =>
      rw [List.forall_mem_cons, List.forall_mem_cons] at hcs
      obtain ⟨hi, ha, lo, hb, cs', hrest, hbs⟩ : ∃ hi, value? a = some hi ∧ ∃ lo,
          value? b = some lo ∧ ∃ cs', bytes? rest = some cs' ∧
            UInt8.ofNat (16 * hi + lo) :: cs' = bs := by
        simpa [Option.bind_eq_some_iff] using h
      obtain ⟨hhi, hdigit⟩ := digit_of_value? hcs.1 ha
      obtain ⟨hlo, hdigit'⟩ := digit_of_value? hcs.2.1 hb
      have hlt : 16 * hi + lo < 256 := by omega
      have hbyte : (UInt8.ofNat (16 * hi + lo)).toNat = 16 * hi + lo :=
        UInt8.toNat_ofNat_of_lt hlt
      have hfirst : (16 * hi + lo) / 16 = hi := by omega
      have hsecond : (16 * hi + lo) % 16 = lo := by omega
      rw [← hbs, ofBytes, List.flatMap_cons, ofByte, hbyte, hfirst, hsecond, hdigit, hdigit']
      exact congrArg (fun ds => a :: b :: ds) (ih hcs.2.2 hrest)

/-! ### Writing -/

theorem length_ofBytes (bs : List UInt8) : (ofBytes bs).length = 2 * bs.length := by
  induction bs with
  | nil => rfl
  | cons b bs ih =>
      rw [ofBytes, List.flatMap_cons, List.length_append, List.length_cons]
      rw [ofBytes] at ih
      rw [ih]
      simp only [ofByte, List.length_cons, List.length_nil]
      omega

theorem ofBytes_append (as bs : List UInt8) : ofBytes (as ++ bs) = ofBytes as ++ ofBytes bs :=
  List.flatMap_append

theorem ofBytes_injective : Function.Injective ofBytes := by
  intro as bs h
  have hread : bytes? (ofBytes as) = bytes? (ofBytes bs) := congrArg bytes? h
  rw [bytes?_ofBytes, bytes?_ofBytes] at hread
  exact Option.some.inj hread

/-- Behind the digits of the first bytes stand those of the others. -/
theorem drop_ofBytes (bs : List UInt8) (n : Nat) :
    (ofBytes bs).drop (2 * n) = ofBytes (bs.drop n) := by
  rcases Nat.le_total bs.length n with hle | hle
  · rw [List.drop_eq_nil_of_le (by rw [length_ofBytes]; omega), List.drop_eq_nil_of_le hle]
    rfl
  · have hlen : (ofBytes (bs.take n)).length = 2 * n := by
      rw [length_ofBytes, List.length_take, Nat.min_eq_left hle]
    calc (ofBytes bs).drop (2 * n)
        = (ofBytes (bs.take n) ++ ofBytes (bs.drop n)).drop (2 * n) := by
          rw [← ofBytes_append, List.take_append_drop]
      _ = ofBytes (bs.drop n) := by rw [← hlen, List.drop_left]

theorem ofBytes_prefix_iff {as bs : List UInt8} : ofBytes as <+: ofBytes bs ↔ as <+: bs := by
  constructor
  · rintro ⟨ds, hds⟩
    refine ⟨bs.drop as.length, ofBytes_injective ?_⟩
    rw [ofBytes_append, ← drop_ofBytes, ← hds, ← length_ofBytes, List.drop_left]
  · rintro ⟨bs', rfl⟩
    rw [ofBytes_append]
    exact List.prefix_append _ _

end ContractSurvey.Hex
