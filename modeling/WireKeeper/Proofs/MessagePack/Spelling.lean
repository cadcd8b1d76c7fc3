import WireKeeper.Proofs.Basic
import WireKeeper.Proofs.MessagePack.RoundTrip

/-! # Other spellings of bytes

A string of bytes may stand as a binary string or as an array of numbers, each number in any form
that holds it and the array with any count that does. Writers use the binary string only; readers
take all of them for the same bytes.

* `ByteSpelling`, `ArrayHead`, `BytesSpelling`: the forms of a small number, of the start of an
  array and of a string of bytes;
* `ReadsAs`: bytes that are read as an item of a meaning;
* `BytesSpelling.readsAs`: every spelling of a string of bytes means that string. -/

namespace WireKeeper.MessagePack

/-! ## Forms -/

/-- The forms of a number below 256: itself, or a number of some bytes with or without a sign. -/
inductive ByteSpelling (b : UInt8) : Bytes → Prop
  /-- The number itself, if it is small. -/
  | small (h : b < 0x80) : ByteSpelling b [b]
  /-- A number without sign, of one, two, four or eight bytes. -/
  | natural {head : UInt8} {size : Nat}
      (h : (head, size) ∈ [((0xCC : UInt8), 1), (0xCD, 2), (0xCE, 4), (0xCF, 8)]) :
      ByteSpelling b (head :: Bytes.ofNat size b.toNat)
  /-- A number with a sign, for which one byte is enough only if the number is small. -/
  | integer {head : UInt8} {size : Nat}
      (h : (head, size) ∈ [((0xD0 : UInt8), 1), (0xD1, 2), (0xD2, 4), (0xD3, 8)])
      (hfits : b < 0x80 ∨ 1 < size) : ByteSpelling b (head :: Bytes.ofNat size b.toNat)

/-- The forms of the start of an array of some items, of which writers use the shortest. -/
inductive ArrayHead (count : Nat) : Bytes → Prop
  | short (h : count < 16) : ArrayHead count [UInt8.ofNat (0x90 + count)]
  | medium (h : count < twoPow 16) : ArrayHead count (0xDC :: Bytes.ofNat 2 count)
  | long (h : count < twoPow 32) : ArrayHead count (0xDD :: Bytes.ofNat 4 count)

/-- The forms of a string of bytes: the binary string that writers use, or an array of numbers, each
in any of its forms. -/
inductive BytesSpelling (bytes : Bytes) : Bytes → Prop
  | binary : BytesSpelling bytes (writeBinary bytes)
  | numbers {head : Bytes} {items : List Bytes} (hhead : ArrayHead bytes.length head)
      (hitems : List.Forall₂ ByteSpelling bytes items) :
      BytesSpelling bytes (head ++ items.flatten)

/-! ## Meanings -/

variable {α : Type} {depth : Nat} {meaning : Value → Option α}

/-- The bytes are read as an item of a meaning, whatever follows them. -/
def ReadsAs (depth : Nat) (meaning : Value → Option α) (bytes : Bytes) (a : α) : Prop :=
  ∃ v, Reads depth bytes v ∧ meaning v = some a

/-- Items of some meanings, each with what it is read as: from the meanings one by one, the items as
one list. -/
theorem exists_items {as : List α} {items : List Bytes}
    (h : List.Forall₂ (fun a bytes => ReadsAs depth meaning bytes a) as items) :
    ∃ ps : List (Bytes × Value), ps.map Prod.fst = items ∧ (∀ p ∈ ps, Reads depth p.1 p.2) ∧
      (ps.map Prod.snd).mapM meaning = some as := by
  induction h with
  | nil => exact ⟨[], rfl, nofun, rfl⟩
  | @cons a bytes as items hitem _ ih =>
    obtain ⟨v, hread, hmeaning⟩ := hitem
    obtain ⟨ps, rfl, hps, has⟩ := ih
    refine ⟨(bytes, v) :: ps, rfl, List.forall_mem_cons.2 ⟨hread, hps⟩, ?_⟩
    rw [List.map_cons, List.mapM_cons, hmeaning, has]
    rfl

/-- An array is read whatever form its start has: short, with two bytes for the count, or
with four. -/
theorem reads_array {head : Bytes} {ps : List (Bytes × Value)} (hhead : ArrayHead ps.length head)
    (h : ∀ p ∈ ps, Reads (depth + 1) p.1 p.2) :
    Reads (depth + 2) (head ++ (ps.map Prod.fst).flatten) (.array (ps.map Prod.snd)) := by
  intro rest
  cases hhead with
  | short hn =>
    have hread := reads_writeArray ps h (Nat.lt_trans hn (by decide)) rest
    rwa [writeArray, List.length_map, if_pos hn] at hread
  | medium hn =>
    have hread := @read_counted _ 2 0xDC _ rfl h rest
    rwa [Nat.mod_eq_of_lt hn, List.take_length, List.drop_length] at hread
  | long hn =>
    have hread := @read_counted _ 4 0xDD _ rfl h rest
    rwa [Nat.mod_eq_of_lt hn, List.take_length, List.drop_length] at hread

/-- A number with a sign is read by its bits: as many of them as its size has. -/
theorem reads_signed {size n : Nat} {head : UInt8}
    (hlead : Value.lead head.toNat =
      .bytes size fun bs => .integer (signed bs.length (Bytes.toNat bs))) :
    Reads (depth + 1) (head :: Bytes.ofNat size n)
      (.integer (signed size (n % twoPow (8 * size)))) := by
  rw [← Bytes.length_ofNat size n] at hlead
  have h : Reads (depth + 1) _ _ := reads_bytes hlead rfl
  rwa [Bytes.length_ofNat, Bytes.toNat_ofNat] at h

/-- A number whose highest bit is free has no sign: `signed size n = n`. -/
theorem signed_of_lt {size n : Nat} (h : n * 2 < Nat.pow 256 size) : signed size n = n :=
  Int.bmod_eq_of_le_mul_two (by omega) (by omega)

/-- Every form of a small number means that number. -/
theorem ByteSpelling.readsAs {b : UInt8} {bytes : Bytes} (h : ByteSpelling b bytes) (depth : Nat) :
    ReadsAs (depth + 1) Value.asByte? bytes b := by
  have hb := b.toNat_lt
  have hnatural : Value.asByte? (.natural b.toNat) = some b := by
    rw [Value.asByte?, if_pos hb, UInt8.ofNat_toNat]
  -- itself, without a sign, with a sign
  cases h with
  | small hsmall =>
    have hlt : b.toNat < 0x80 := hsmall
    have hread := reads_writeNatural (Nat.lt_trans hb (by decide)) depth
    rw [writeNatural, if_pos hlt, UInt8.ofNat_toNat] at hread
    exact ⟨_, hread, hnatural⟩
  | @natural head size h =>
    simp only [List.mem_cons, Prod.mk.injEq, List.not_mem_nil, or_false] at h
    rcases h with ⟨rfl, rfl⟩ | ⟨rfl, rfl⟩ | ⟨rfl, rfl⟩ | ⟨rfl, rfl⟩ <;>
      exact ⟨_, reads_number (Nat.lt_of_lt_of_le hb (by decide)) rfl, hnatural⟩
  | @integer head size h hfits =>
    have hinteger : ∀ size, b.toNat * 2 < Nat.pow 256 size →
        Value.asByte? (.integer (signed size (b.toNat % twoPow (8 * size)))) = some b := by
      intro size hlt
      have hpow : twoPow (8 * size) = Nat.pow 256 size := Nat.pow_mul 2 8 size
      rw [Nat.mod_eq_of_lt (by omega), signed_of_lt hlt, Value.asByte?, if_pos (by omega),
        Int.toNat_natCast, UInt8.ofNat_toNat]
    have hsmall : b < 0x80 → b.toNat < 0x80 := id
    simp only [List.mem_cons, Prod.mk.injEq, List.not_mem_nil, or_false] at h
    rcases h with ⟨rfl, rfl⟩ | ⟨rfl, rfl⟩ | ⟨rfl, rfl⟩ | ⟨rfl, rfl⟩
    · -- the highest bit of the only byte is the sign
      have := hsmall (hfits.resolve_right (by decide))
      exact ⟨_, reads_signed rfl, hinteger 1 (show b.toNat * 2 < 256 by omega)⟩
    · exact ⟨_, reads_signed rfl, hinteger 2 (show b.toNat * 2 < 65536 by omega)⟩
    · exact ⟨_, reads_signed rfl, hinteger 4 (show b.toNat * 2 < 4294967296 by omega)⟩
    · exact ⟨_, reads_signed rfl,
        hinteger 8 (show b.toNat * 2 < 18446744073709551616 by omega)⟩

/-- Every spelling of a string of bytes means that string, if its length can be counted. -/
theorem BytesSpelling.readsAs {bytes w : Bytes} (h : BytesSpelling bytes w)
    (hlength : bytes.length < twoPow 32) (depth : Nat) :
    ReadsAs (depth + 2) Value.asBytes? w bytes := by
  cases h with
  | binary => exact ⟨_, reads_writeBinary hlength (depth + 1), rfl⟩
  | numbers hhead hitems =>
    obtain ⟨ps, rfl, hps, hbytes⟩ :=
      exists_items (hitems.imp fun _ _ (h : ByteSpelling _ _) => h.readsAs depth)
    have hcount : bytes.length = ps.length := by
      rw [length_of_mapM_some hbytes, List.length_map]
    exact ⟨_, reads_array (hcount ▸ hhead) hps, hbytes⟩

/-- An array of items that have a meaning, with the count that writers use, means the list of these
meanings. -/
theorem readsAs_writeArray {as : List α} {items : List Bytes}
    (h : List.Forall₂ (fun a bytes => ReadsAs (depth + 1) meaning bytes a) as items)
    (hcount : as.length < twoPow 32) :
    ReadsAs (depth + 2) (Value.asList? meaning) (writeArray items) as := by
  have hlength := h.length_eq
  obtain ⟨ps, rfl, hps, has⟩ := exists_items h
  rw [List.length_map] at hlength
  exact ⟨_, reads_writeArray ps hps (hlength ▸ hcount), has⟩

end WireKeeper.MessagePack
