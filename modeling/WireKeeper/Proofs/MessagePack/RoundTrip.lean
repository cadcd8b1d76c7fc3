import WireKeeper.MessagePack.Value
import WireKeeper.MessagePack.Writer
import WireKeeper.Proofs.Bytes.Number

/-! # MessagePack is read back as it was written

`Reads depth bytes v` says that the bytes are read as the item `v` whatever follows them. Every
writer has one such law, and an array has it if its items do.

* `reads_writeNull`, `reads_writeNatural`, `reads_writeBinary`, `reads_writeText`: single items;
* `reads_writeArray`: an array whose length can be counted;
* `read_writeArray`: any array. The count of a longer one wraps, so that its first items are read
  and the others are left. -/

namespace WireKeeper.MessagePack

/-! ## Taking bytes -/

/-- As many bytes as stand in front are taken off: `takeBytes front.length (front ++ rest) = some
(front, rest)`. -/
@[simp] theorem takeBytes_append (front rest : Bytes) :
    takeBytes front.length (front ++ rest) = some (front, rest) := by
  induction front with
  | nil => rfl
  | cons b bs ih => rw [List.length_cons, List.cons_append, takeBytes, ih]

/-- The written bytes of a number give its low bits, `n % 2 ^ (8 * size)`, whatever follows them. -/
theorem takeNat_ofNat (size n : Nat) (rest : Bytes) :
    takeNat size (Bytes.ofNat size n ++ rest) = some (n % twoPow (8 * size), rest) := by
  have h := takeBytes_append (Bytes.ofNat size n) rest
  rw [Bytes.length_ofNat] at h
  rw [takeNat, h, Option.map_some, Bytes.toNat_ofNat]

/-- A number that fits is taken off as it was written: `n < 2 ^ (8 * size)`. -/
theorem takeNat_ofNat_of_lt {size n : Nat} (h : n < twoPow (8 * size)) (rest : Bytes) :
    takeNat size (Bytes.ofNat size n ++ rest) = some (n, rest) := by
  rw [takeNat_ofNat, Nat.mod_eq_of_lt h]

/-! ## First bytes -/

/-- A first byte below `80` is the number itself. -/
theorem lead_natural {n : Nat} (h : n < 0x80) : Value.lead n = .done (.natural n) := if_pos h

/-- A first byte from `90` to `9F` announces up to fifteen items. -/
theorem lead_items {n : Nat} (h : n < 16) : Value.lead (0x90 + n) = .items n := by
  unfold Value.lead
  rw [if_neg (by omega), if_neg (by omega), if_pos (by omega), Nat.add_sub_cancel_left]

/-- A first byte from `A0` to `BF` announces a string of up to thirty-one bytes. -/
theorem lead_text {n : Nat} (h : n < 32) : Value.lead (0xA0 + n) = .bytes n .text := by
  unfold Value.lead
  rw [if_neg (by omega), if_neg (by omega), if_neg (by omega), if_pos (by omega),
    Nat.add_sub_cancel_left]

/-- Reading begins with what the first byte announces, and nothing is nested deeper than `depth`
allows. -/
theorem read_cons (depth : Nat) (b : UInt8) (bs : Bytes) :
    Value.read (depth + 1) (b :: bs) =
      (Value.readLead (Value.read depth) bs (Value.lead b.toNat)).filter
        fun p => 0 < depth || !p.1.isNested := rfl

/-- A small number as a byte is the number again: `(UInt8.ofNat n).toNat = n` for `n < 256`. -/
theorem toNat_ofNat_byte {n : Nat} (h : n < 256) : (UInt8.ofNat n).toNat = n := by
  rw [UInt8.toNat_ofNat', Nat.mod_eq_of_lt h]

/-! ## Single items -/

/-- The bytes are **read as** an item, whatever follows them: reading stops exactly where
they end. -/
def Reads (depth : Nat) (bytes : Bytes) (v : Value) : Prop :=
  ∀ rest, Value.read depth (bytes ++ rest) = some (v, rest)

/-- A null item is read back. -/
theorem reads_writeNull (depth : Nat) : Reads (depth + 1) writeNull .null := fun rest => by
  rw [writeNull, List.cons_append, read_cons]
  simp [Value.lead, Value.readLead, Value.isNested]

/-- An item of a fixed number of bytes: the first byte tells how many, and what they make. -/
theorem reads_bytes {depth : Nat} {head : UInt8} {bytes : Bytes} {make : Bytes → Value}
    (hlead : Value.lead head.toNat = .bytes bytes.length make)
    (hnested : (make bytes).isNested = false) : Reads (depth + 1) (head :: bytes) (make bytes) := by
  intro rest
  rw [List.cons_append, read_cons, hlead, Value.readLead, takeBytes_append, Option.map_some]
  simp [hnested]

/-- An item of a written number of bytes: behind the first byte stands the number, and then they. -/
theorem reads_sized {depth size : Nat} {head : UInt8} {bytes : Bytes} {make : Bytes → Value}
    (hlead : Value.lead head.toNat = .sized size 0 make) (hsize : bytes.length < twoPow (8 * size))
    (hnested : (make bytes).isNested = false) :
    Reads (depth + 1) (head :: Bytes.ofNat size bytes.length ++ bytes) (make bytes) := by
  intro rest
  rw [List.cons_append, List.cons_append, List.append_assoc, read_cons, hlead, Value.readLead,
    takeNat_ofNat_of_lt hsize]
  simp [hnested]

/-- A number in one of the unsigned forms, of `size` bytes behind a first byte. -/
theorem reads_number {depth size n : Nat} {head : UInt8} (hsize : n < twoPow (8 * size))
    (hlead : Value.lead head.toNat = .bytes size fun bs => .natural (Bytes.toNat bs)) :
    Reads (depth + 1) (head :: Bytes.ofNat size n) (.natural n) := by
  rw [← Bytes.length_ofNat size n] at hlead
  have h : Reads (depth + 1) _ _ := reads_bytes hlead rfl
  rwa [Bytes.toNat_ofNat_of_lt hsize] at h

/-- A number of 64 bits is read back, in whichever of the five forms it is written. -/
theorem reads_writeNatural {n : Nat} (hn : n < twoPow 64) (depth : Nat) :
    Reads (depth + 1) (writeNatural n) (.natural n) := by
  rw [writeNatural]
  -- the number itself, or one, two, four or eight bytes
  split
  · next h =>
    intro rest
    rw [List.cons_append, read_cons, toNat_ofNat_byte (by omega), lead_natural h, Value.readLead]
    simp [Value.isNested]
  split
  · next h => exact @reads_number _ 1 _ _ h rfl
  split
  · next h => exact @reads_number _ 2 _ _ h rfl
  split
  · next h => exact @reads_number _ 4 _ _ h rfl
  · exact @reads_number _ 8 _ _ hn rfl

/-- A binary string whose length can be counted, which is one below `2 ^ 32`, is read back. -/
theorem reads_writeBinary {bytes : Bytes} (h : bytes.length < twoPow 32) (depth : Nat) :
    Reads (depth + 1) (writeBinary bytes) (.binary bytes) := by
  rw [writeBinary]
  split
  · next h => exact reads_sized rfl h rfl
  split
  · next h => exact reads_sized rfl h rfl
  · exact reads_sized rfl h rfl

/-- A string whose length can be counted, which is one below `2 ^ 32`, is read back. -/
theorem reads_writeText {s : String} (h : (Utf8.ofString s).length < twoPow 32) (depth : Nat) :
    Reads (depth + 1) (writeText s) (.text (Utf8.ofString s)) := by
  rw [writeText]
  split
  · next h =>
    have hlead : Value.lead (UInt8.ofNat (0xA0 + (Utf8.ofString s).length)).toNat =
        .bytes (Utf8.ofString s).length .text := by rw [toNat_ofNat_byte (by omega), lead_text h]
    exact reads_bytes hlead rfl
  split
  · next h => exact reads_sized rfl h rfl
  split
  · next h => exact reads_sized rfl h rfl
  · exact reads_sized rfl h rfl

/-- Nothing, or an item that is read back: nothing is read as null. -/
theorem reads_writeOptional {α : Type} {write : α → Bytes} {value : α → Value} {depth : Nat}
    (h : ∀ a, Reads (depth + 1) (write a) (value a)) (o : Option α) :
    Reads (depth + 1) (writeOptional write o) ((o.map value).getD .null) := by
  cases o with
  | none => exact reads_writeNull depth
  | some a => exact h a

/-! ## Arrays

The items of an array are given with what they are read as. -/

/-- As many items as are asked for are read from the front, and the others are left where
they are. -/
theorem readMany_append {depth : Nat} {ps : List (Bytes × Value)}
    (h : ∀ p ∈ ps, Reads depth p.1 p.2) {count : Nat} (hcount : count ≤ ps.length) (rest : Bytes) :
    readMany (Value.read depth) count ((ps.map Prod.fst).flatten ++ rest) =
      some ((ps.take count).map Prod.snd, ((ps.drop count).map Prod.fst).flatten ++ rest) := by
  induction count generalizing ps with
  | zero => rfl
  | succ count ih =>
    cases ps with
    | nil => exact absurd hcount (Nat.not_succ_le_zero count)
    | cons p ps =>
      have htail := ih (fun q hq => h q (List.mem_cons_of_mem p hq)) (Nat.le_of_succ_le_succ hcount)
      rw [List.map_cons, List.flatten_cons, List.append_assoc, readMany,
        h p List.mem_cons_self]
      simp only [htail, List.take_succ_cons, List.map_cons, List.drop_succ_cons]

/-- A short array is read by its items, as its first byte tells how many there are. -/
theorem read_writeArray_of_lt {depth : Nat} {items : List Bytes} (h : items.length < 16)
    (rest : Bytes) :
    Value.read (depth + 2) (writeArray items ++ rest) =
      (readMany (Value.read (depth + 1)) items.length (items.flatten ++ rest)).map
        fun p => (.array p.1, p.2) := by
  rw [writeArray, if_pos h, List.append_assoc, List.cons_append, List.nil_append, read_cons,
    toNat_ofNat_byte (by omega), lead_items h, Value.readLead]
  cases readMany (Value.read (depth + 1)) items.length (items.flatten ++ rest) <;> rfl

/-- A count of `size` bytes behind the first byte holds the bits of its size. What goes beyond is
left unread. -/
theorem read_counted {depth size : Nat} {head : UInt8} {ps : List (Bytes × Value)}
    (hlead : Value.lead head.toNat = .countedItems size) (h : ∀ p ∈ ps, Reads (depth + 1) p.1 p.2)
    (rest : Bytes) :
    Value.read (depth + 2)
        (head :: Bytes.ofNat size ps.length ++ (ps.map Prod.fst).flatten ++ rest) =
      some (.array ((ps.take (ps.length % twoPow (8 * size))).map Prod.snd),
        ((ps.drop (ps.length % twoPow (8 * size))).map Prod.fst).flatten ++ rest) := by
  have hmany := readMany_append h (Nat.mod_le ps.length (twoPow (8 * size))) rest
  rw [List.cons_append, List.cons_append, List.append_assoc, read_cons, hlead, Value.readLead,
    takeNat_ofNat]
  simp [hmany]

/-- The count of an array holds 32 bits. What goes beyond is left unread behind the array: of `ps`
the first `ps.length % 2 ^ 32` items are read. -/
theorem read_writeArray {depth : Nat} {ps : List (Bytes × Value)}
    (h : ∀ p ∈ ps, Reads (depth + 1) p.1 p.2) (rest : Bytes) :
    Value.read (depth + 2) (writeArray (ps.map Prod.fst) ++ rest) =
      some (.array ((ps.take (ps.length % twoPow 32)).map Prod.snd),
        ((ps.drop (ps.length % twoPow 32)).map Prod.fst).flatten ++ rest) := by
  by_cases hn : ps.length < 16
  · have hsmall : ps.length % twoPow 32 = ps.length :=
      Nat.mod_eq_of_lt (Nat.lt_trans hn (by decide))
    have hmany := readMany_append h (Nat.mod_le ps.length (twoPow 32)) rest
    rw [hsmall] at hmany ⊢
    rw [read_writeArray_of_lt (by rwa [List.length_map]), List.length_map, hmany]
    rfl
  rw [writeArray, List.length_map, if_neg hn]
  split
  · next hn =>
    -- the shorter count keeps the low 16 bits, which is all there is
    have hsmall : ps.length % twoPow (8 * 2) = ps.length % twoPow 32 := by
      rw [Nat.mod_eq_of_lt (show ps.length < twoPow (8 * 2) from hn),
        Nat.mod_eq_of_lt (Nat.lt_trans hn (by decide))]
    rw [← hsmall]
    exact read_counted rfl h rest
  · exact read_counted rfl h rest

/-- An array that can be counted is read back, if its items are. -/
theorem reads_writeArray {depth : Nat} (ps : List (Bytes × Value))
    (h : ∀ p ∈ ps, Reads (depth + 1) p.1 p.2) (hcount : ps.length < twoPow 32) :
    Reads (depth + 2) (writeArray (ps.map Prod.fst)) (.array (ps.map Prod.snd)) := by
  intro rest
  rw [read_writeArray h, Nat.mod_eq_of_lt hcount, List.take_length, List.drop_length]
  rfl

end WireKeeper.MessagePack
