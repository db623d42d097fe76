import ContractSurvey.Proofs.Bytecode.Text
import ContractSurvey.Proofs.Text.Hex

/-!
# Proofs — Bytecode — Bytes

The bytes of a text.  `IsFront` says what they are without a scan: written out, they are the
longest front part of the text that consists of whole bytes in lower-case digits.  `isFront_bytes`
is that the bytes read from a text are these, for every text.  From it come the bytes of a text
that goes on (`bytes_prefix`) and of one text behind another (`bytes_append`).
-/

namespace ContractSurvey.Bytecode

variable {cs ds : List Char} {bs : List UInt8}

/-! ### The longest front part of whole bytes -/

/-- The bytes that a text starts with: no longer front part of it consists of whole bytes. -/
structure IsFront (cs : List Char) (bs : List UInt8) : Prop where
  isPrefix : Hex.ofBytes bs <+: cs
  longest (ds : List Char) : ds <+: cs → (∀ c ∈ ds, Hex.isLower c = true) → ds.length % 2 = 0 →
    ds <+: Hex.ofBytes bs

theorem length_hexPart (cs : List Char) : (hexPart cs).length % 2 = 0 := by
  simp only [hexPart, List.length_take]
  omega

theorem isLower_of_mem_hexPart {c : Char} (h : c ∈ hexPart cs) : Hex.isLower c = true :=
  List.mem_takeWhile_imp (List.mem_of_mem_take h)

theorem isDigit_of_mem_hexPart {c : Char} (h : c ∈ hexPart cs) : Hex.isDigit c = true :=
  Hex.isDigit_iff.mpr (.inl (isLower_of_mem_hexPart h))

/-- The front part that is read as bytes is a text of whole bytes. -/
theorem isSome_bytes?_hexPart (cs : List Char) : (Hex.bytes? (hexPart cs)).isSome = true :=
  Hex.isSome_bytes?_iff.mpr ⟨length_hexPart cs, fun _ => isDigit_of_mem_hexPart⟩

theorem ofBytes_bytes (cs : List Char) : Hex.ofBytes (bytes cs) = hexPart cs := by
  obtain ⟨bs, hbs⟩ := Option.isSome_iff_exists.mp (isSome_bytes?_hexPart cs)
  rw [bytes, hbs, Option.getD_some]
  exact Hex.ofBytes_of_bytes? (fun c hc => isLower_of_mem_hexPart hc) hbs

/-- A front part of digits is one of the text's leading digits. -/
theorem prefix_takeWhile (hds : ds <+: cs) (h : ∀ c ∈ ds, Hex.isLower c = true) :
    ds <+: cs.takeWhile Hex.isLower := by
  obtain ⟨rest, rfl⟩ := hds
  rw [List.takeWhile_append_of_pos h]
  exact List.prefix_append _ _

/-- **The bytes of a text.**  Their digits are its longest front part of whole bytes. -/
theorem isFront_bytes (cs : List Char) : IsFront cs (bytes cs) where
  isPrefix := by
    rw [ofBytes_bytes]
    exact (List.take_prefix _ _).trans (List.takeWhile_prefix _)
  longest ds hds h heven := by
    have hlead := prefix_takeWhile hds h
    have hle := hlead.length_le
    rw [ofBytes_bytes]
    refine List.prefix_of_prefix_length_le hlead (List.take_prefix _ _) ?_
    -- an even number of digits is left over only when the last digit is
    simp only [hexPart, List.length_take]
    omega

/-- The digits of a byte and of those behind it stand at twice its place. -/
theorem ofBytes_drop_prefix_drop {i : Nat} (h : i ≤ (bytes cs).length) :
    Hex.ofBytes ((bytes cs).drop i) <+: cs.drop (2 * i) := by
  obtain ⟨rest, hrest⟩ := (isFront_bytes cs).isPrefix
  refine ⟨rest, ?_⟩
  calc Hex.ofBytes ((bytes cs).drop i) ++ rest
      = (Hex.ofBytes (bytes cs)).drop (2 * i) ++ rest := by rw [Hex.drop_ofBytes]
    _ = (Hex.ofBytes (bytes cs) ++ rest).drop (2 * i) := by
        rw [List.drop_append_of_le_length (by rw [Hex.length_ofBytes]; omega)]
    _ = cs.drop (2 * i) := by rw [hrest]

/-! ### Texts of digits -/

/-- The bytes of digits are the first bytes of every text that goes on from them. -/
theorem bytes_prefix (h : ∀ c ∈ cs, Hex.isLower c = true) (hcs : cs <+: ds) :
    bytes cs <+: bytes ds := by
  have hfront : Hex.ofBytes (bytes cs) <+: cs := (isFront_bytes cs).isPrefix
  have hlower : ∀ c ∈ Hex.ofBytes (bytes cs), Hex.isLower c = true :=
    fun c hc => h c (hfront.subset hc)
  have heven : (Hex.ofBytes (bytes cs)).length % 2 = 0 := by
    rw [Hex.length_ofBytes]
    omega
  exact Hex.ofBytes_prefix_iff.mp
    ((isFront_bytes ds).longest _ (hfront.trans hcs) hlower heven)

/-- The bytes of a text behind whole bytes follow them. -/
theorem bytes_append (bs : List UInt8) (cs : List Char) :
    bytes (Hex.ofBytes bs ++ cs) = bs ++ bytes cs := by
  have hlower : ∀ c ∈ Hex.ofBytes bs, Hex.isLower c = true :=
    fun c hc => Hex.isLower_of_mem_ofBytes hc
  have heven : (Hex.ofBytes bs).length = 2 * bs.length := Hex.length_ofBytes bs
  refine Hex.ofBytes_injective ?_
  rw [Hex.ofBytes_append, ofBytes_bytes, ofBytes_bytes, hexPart, hexPart,
    List.takeWhile_append_of_pos hlower]
  have hlen : (Hex.ofBytes bs ++ cs.takeWhile Hex.isLower).length -
      (Hex.ofBytes bs ++ cs.takeWhile Hex.isLower).length % 2 = (Hex.ofBytes bs).length +
        ((cs.takeWhile Hex.isLower).length - (cs.takeWhile Hex.isLower).length % 2) := by
    rw [List.length_append]
    omega
  rw [hlen, List.take_length_add_append]

end ContractSurvey.Bytecode
