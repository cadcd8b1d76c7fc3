import WireKeeper.Net.Address
import WireKeeper.Proofs.Bytes.Base64

/-! # One text for each key

The base64 text of some bytes is told here by its bits. A symbol stands for six of them; together
the symbols carry the bits of the bytes and, in the last symbol, zeros, and padding fills the last
quad. Every string of bytes is spelled by one text.

A key is read from that text of its thirty-two bytes and, blanks around it apart, from no other.
The text of another number of bytes is refused for its length, and any other text is no base64.

* `Base64.bits`, `Base64.letter`: the bits of a number, the symbol of a number of six bits;
* `Base64.Spells`, `Base64.spells_iff`: the text that spells some bytes is the one that is written;
* `KeyBytes.parse_cases`: a text that spells bytes, and one that spells none, read as a key;
* `ReadsKeys`, `key_texts_exact`: both kinds of keys. -/

namespace WireKeeper.Base64

/-! ## Bits -/

/-- The lowest bits of a number, the most significant first: `width` of them. -/
def bits (width n : Nat) : List Bool := (List.range width).map fun i => n.testBit (width - 1 - i)

/-- As many bits are told as were asked for. -/
@[simp] theorem length_bits (width n : Nat) : (bits width n).length = width := by simp [bits]

/-- The higher bits stand in front of the lower ones: `high + low` bits are those of `n / 2 ^ low`
and those of `n % 2 ^ low`. -/
theorem bits_add (high low n : Nat) :
    bits (high + low) n = bits high (n / twoPow low) ++ bits low (n % twoPow low) := by
  rw [bits, List.range_add, List.map_append, List.map_map, bits, bits]
  -- each of the two parts bit by bit
  congr 1
  · refine List.map_congr_left fun i hi => ?_
    have hi := List.mem_range.1 hi
    rw [twoPow, Nat.pow_eq, Nat.testBit_div_two_pow]
    congr 1
    omega
  · refine List.map_congr_left fun i hi => ?_
    have hi := List.mem_range.1 hi
    rw [Function.comp_apply, twoPow, Nat.pow_eq, Nat.testBit_mod_two_pow, decide_eq_true (by omega),
      Bool.true_and]
    congr 1
    omega

/-- A number below a power of two is decided by its bits: two with the same `width` bits
are equal. -/
theorem bits_inj {width m n : Nat} (hm : m < twoPow width) (hn : n < twoPow width)
    (h : bits width m = bits width n) : m = n := by
  refine Nat.eq_of_testBit_eq fun i => ?_
  by_cases hi : i < width
  · -- the bit of weight `i` stands `i` places before the end
    have hbit := congrArg (·[width - 1 - i]?) h
    simp only [bits, List.getElem?_map, List.getElem?_range (show width - 1 - i < width by omega),
      Option.map_some, Option.some_inj, show width - 1 - (width - 1 - i) = i by omega] at hbit
    exact hbit
  · have hle : twoPow width ≤ 2 ^ i := Nat.pow_le_pow_right (by decide) (by omega)
    rw [Nat.testBit_lt_two_pow (Nat.lt_of_lt_of_le hm hle),
      Nat.testBit_lt_two_pow (Nat.lt_of_lt_of_le hn hle)]

/-! ## The text that spells some bytes -/

/-- The symbols, in the order of their values. -/
def alphabet : List Char :=
  ['A', 'B', 'C', 'D', 'E', 'F', 'G', 'H', 'I', 'J', 'K', 'L', 'M', 'N', 'O', 'P',
    'Q', 'R', 'S', 'T', 'U', 'V', 'W', 'X', 'Y', 'Z', 'a', 'b', 'c', 'd', 'e', 'f',
    'g', 'h', 'i', 'j', 'k', 'l', 'm', 'n', 'o', 'p', 'q', 'r', 's', 't', 'u', 'v',
    'w', 'x', 'y', 'z', '0', '1', '2', '3', '4', '5', '6', '7', '8', '9', '+', '/']

/-- The symbol of a number of six bits. -/
def letter (v : Fin 64) : Char := alphabet.get (v.cast rfl)

/-- A text **spells** some bytes if its symbols carry the bits of the bytes and fewer than six
zeros, and padding fills the last quad. -/
inductive Spells (bytes : Bytes) : List Char → Prop
  | mk {values : List (Fin 64)} {unused padding : Nat}
      (hbits : values.flatMap (fun v => bits 6 v.val) =
        bytes.flatMap (fun b => bits 8 b.toNat) ++ List.replicate unused false)
      (hunused : unused < 6) (hquads : (values.length + padding) % 4 = 0) (hpadding : padding < 4) :
      Spells bytes (values.map letter ++ List.replicate padding '=')

variable {bytes : Bytes} {text : List Char}

/-- As many bits as all the symbols carry: `width` for each of them. -/
theorem length_flatMap_bits {α : Type} (width : Nat) (f : α → Nat) (l : List α) :
    (l.flatMap fun a => bits width (f a)).length = width * l.length := by
  simp [List.length_flatMap, Nat.mul_comm]

/-- Symbols are decided by the bits they carry, six by six. -/
theorem values_inj {l l' : List (Fin 64)}
    (h : l.flatMap (fun v => bits 6 v.val) = l'.flatMap fun v => bits 6 v.val) : l = l' := by
  induction l generalizing l' with
  | nil =>
    have hlength := congrArg List.length h
    rw [length_flatMap_bits, length_flatMap_bits, List.length_nil] at hlength
    exact (List.eq_nil_of_length_eq_zero (by omega)).symm
  | cons v vs ih =>
    cases l' with
    | nil =>
      have hlength := congrArg List.length h
      rw [length_flatMap_bits, length_flatMap_bits, List.length_nil, List.length_cons] at hlength
      omega
    | cons w ws =>
      rw [List.flatMap_cons, List.flatMap_cons] at h
      obtain ⟨hbits, hrest⟩ := List.append_inj h (by rw [length_bits, length_bits])
      rw [Fin.ext (bits_inj v.isLt w.isLt hbits), ih hrest]

/-- No bytes are spelled by two texts: the bits, and so the symbols and the padding, are
the same. -/
theorem Spells.unique {text' : List Char} (h : Spells bytes text) (h' : Spells bytes text') :
    text = text' := by
  obtain @⟨values, unused, padding, hbits, hunused, hquads, hpadding⟩ := h
  obtain @⟨values', unused', padding', hbits', hunused', hquads', hpadding'⟩ := h'
  -- the number of bits fixes how many symbols there are, and with them all the rest
  have hlength := congrArg List.length hbits
  have hlength' := congrArg List.length hbits'
  rw [length_flatMap_bits, List.length_append, List.length_replicate] at hlength hlength'
  have hzeros : unused = unused' := by omega
  have hvalues : values = values' := values_inj (by rw [hbits, hbits', hzeros])
  have hpads : padding = padding' := by
    rw [← hvalues] at hquads'
    omega
  rw [hvalues, hpads]

/-- A symbol that is written is the one of the alphabet. -/
theorem char_symbol (v : Fin 64) : Char.ofNat (symbol v.val).toNat = letter v := by
  revert v
  decide

/-- More symbols and more bytes in front, of as many bits and in whole quads, are spelled by a
longer text. -/
theorem Spells.append {front : Bytes} {values : List (Fin 64)} (h : Spells bytes text)
    (hbits : values.flatMap (fun v => bits 6 v.val) = front.flatMap fun b => bits 8 b.toNat)
    (hquads : values.length % 4 = 0) : Spells (front ++ bytes) (values.map letter ++ text) := by
  obtain @⟨more, unused, padding, hmore, hunused, hfull, hpadding⟩ := h
  rw [← List.append_assoc, ← List.map_append]
  refine .mk ?_ hunused ?_ hpadding
  · rw [List.flatMap_append, List.flatMap_append, hbits, hmore, List.append_assoc]
  · rw [List.length_append]
    omega

/-- The bits of one byte, in two symbols, with four zeros behind it. -/
theorem bits_one (a : Nat) :
    bits 6 (a / 4) ++ bits 6 (a % 4 * 16) = bits 8 a ++ List.replicate 4 false := by
  have hsymbols : bits 12 (a * 16) = bits 6 (a * 16 / 64) ++ bits 6 (a * 16 % 64) := bits_add 6 6 _
  have hbyte : bits 12 (a * 16) = bits 8 (a * 16 / 16) ++ bits 4 (a * 16 % 16) := bits_add 8 4 _
  rw [show a * 16 / 64 = a / 4 by omega, show a * 16 % 64 = a % 4 * 16 by omega] at hsymbols
  rw [show a * 16 / 16 = a by omega, show a * 16 % 16 = 0 by omega] at hbyte
  exact hsymbols.symm.trans hbyte

/-- The bits of two bytes, in three symbols, with two zeros behind them. -/
theorem bits_two {a b : Nat} (hb : b < 256) :
    bits 6 (a / 4) ++ (bits 6 (a % 4 * 16 + b / 16) ++ bits 6 (b % 16 * 4)) =
      bits 8 a ++ (bits 8 b ++ List.replicate 2 false) := by
  let n := (a * 256 + b) * 4
  have hsymbols : bits 18 n = bits 6 (n / 4096) ++ bits 12 (n % 4096) := bits_add 6 12 n
  have hlower : bits 12 (n % 4096) = bits 6 (n % 4096 / 64) ++ bits 6 (n % 4096 % 64) :=
    bits_add 6 6 _
  have hbytes : bits 18 n = bits 8 (n / 1024) ++ bits 10 (n % 1024) := bits_add 8 10 n
  have hsecond : bits 10 (n % 1024) = bits 8 (n % 1024 / 4) ++ bits 2 (n % 1024 % 4) :=
    bits_add 8 2 _
  rw [hlower, show n / 4096 = a / 4 by omega, show n % 4096 / 64 = a % 4 * 16 + b / 16 by omega,
    show n % 4096 % 64 = b % 16 * 4 by omega] at hsymbols
  rw [hsecond, show n / 1024 = a by omega, show n % 1024 / 4 = b by omega,
    show n % 1024 % 4 = 0 by omega] at hbytes
  exact hsymbols.symm.trans hbytes

/-- The bits of three bytes, in four symbols, with no zeros behind them. -/
theorem bits_three {a b c : Nat} (hb : b < 256) (hc : c < 256) :
    bits 6 (a / 4) ++ (bits 6 (a % 4 * 16 + b / 16) ++
        (bits 6 (b % 16 * 4 + c / 64) ++ bits 6 (c % 64))) =
      bits 8 a ++ (bits 8 b ++ bits 8 c) := by
  let n := (a * 256 + b) * 256 + c
  -- the number of all twenty-four bits is cut in two ways, into four parts and into three
  have hsymbols : bits 24 n = bits 12 (n / 4096) ++ bits 12 (n % 4096) := bits_add 12 12 n
  have hupper : bits 12 (n / 4096) = bits 6 (n / 4096 / 64) ++ bits 6 (n / 4096 % 64) :=
    bits_add 6 6 _
  have hlower : bits 12 (n % 4096) = bits 6 (n % 4096 / 64) ++ bits 6 (n % 4096 % 64) :=
    bits_add 6 6 _
  have hbytes : bits 24 n = bits 8 (n / 65536) ++ bits 16 (n % 65536) := bits_add 8 16 n
  have hlast : bits 16 (n % 65536) = bits 8 (n % 65536 / 256) ++ bits 8 (n % 65536 % 256) :=
    bits_add 8 8 _
  rw [hupper, hlower, show n / 4096 / 64 = a / 4 by omega,
    show n / 4096 % 64 = a % 4 * 16 + b / 16 by omega,
    show n % 4096 / 64 = b % 16 * 4 + c / 64 by omega, show n % 4096 % 64 = c % 64 by omega,
    List.append_assoc] at hsymbols
  rw [hlast, show n / 65536 = a by omega, show n % 65536 / 256 = b by omega,
    show n % 65536 % 256 = c by omega] at hbytes
  exact hsymbols.symm.trans hbytes

/-- What is written for some bytes spells them. The induction is on the groups of three bytes that
are written. -/
theorem spells_encodeBytes (bytes : Bytes) :
    Spells bytes ((encodeBytes bytes).map fun b => Char.ofNat b.toNat) := by
  induction bytes using encodeBytes.induct with
  | case1 => exact @Spells.mk [] [] 0 0 rfl (by decide) rfl (by decide)
  -- the last group has one byte or two, whose symbols carry zeros at the end
  | case2 a =>
    have ha := a.toNat_lt
    let first : Fin 64 := ⟨a.toNat / 4, by omega⟩
    let second : Fin 64 := ⟨a.toNat % 4 * 16, by omega⟩
    show Spells [a] ([first, second].map (fun v => Char.ofNat (symbol v.val).toNat) ++ ['=', '='])
    rw [List.map_congr_left fun v _ => char_symbol v]
    refine @Spells.mk _ [first, second] 4 2 ?_ (by decide) (by simp) (by decide)
    simpa [first, second] using bits_one a.toNat
  | case3 a b =>
    have ha := a.toNat_lt
    have hb := b.toNat_lt
    let first : Fin 64 := ⟨a.toNat / 4, by omega⟩
    let second : Fin 64 := ⟨a.toNat % 4 * 16 + b.toNat / 16, by omega⟩
    let third : Fin 64 := ⟨b.toNat % 16 * 4, by omega⟩
    show Spells [a, b]
      ([first, second, third].map (fun v => Char.ofNat (symbol v.val).toNat) ++ ['='])
    rw [List.map_congr_left fun v _ => char_symbol v]
    refine @Spells.mk _ [first, second, third] 2 1 ?_ (by decide) (by simp) (by decide)
    simpa [first, second, third] using bits_two hb
  -- a whole group stands in front of a text that spells the rest
  | case4 a b c rest ih =>
    have ha := a.toNat_lt
    have hb := b.toNat_lt
    have hc := c.toNat_lt
    let first : Fin 64 := ⟨a.toNat / 4, by omega⟩
    let second : Fin 64 := ⟨a.toNat % 4 * 16 + b.toNat / 16, by omega⟩
    let third : Fin 64 := ⟨b.toNat % 16 * 4 + c.toNat / 64, by omega⟩
    let fourth : Fin 64 := ⟨c.toNat % 64, by omega⟩
    show Spells ([a, b, c] ++ rest)
      ([first, second, third, fourth].map (fun v => Char.ofNat (symbol v.val).toNat) ++ _)
    rw [List.map_congr_left fun v _ => char_symbol v]
    refine ih.append ?_ (by simp)
    simpa [first, second, third, fourth] using bits_three hb hc

/-- **A text spells some bytes if and only if it is the one that is written for them.** So the
writer is told by bits alone. -/
theorem spells_iff : Spells bytes text ↔ text = (encode bytes).toList := by
  have hwritten := spells_encodeBytes bytes
  rw [← toList_encode] at hwritten
  exact ⟨fun h => h.unique hwritten, fun h => h ▸ hwritten⟩

/-- Reading gives the bytes that a text spells, and fails if it spells none. -/
theorem decode_eq_ok_iff : decode (Utf8.encode text) = .ok bytes ↔ Spells bytes text :=
  decode_encode_eq_ok.trans spells_iff.symm

end WireKeeper.Base64

namespace WireKeeper

open Base64 (Spells)
open Text (IsCore isCore_iff)

/-! ## Keys -/

variable {s : String} {core : List Char} {bytes : Bytes}

namespace KeyBytes

/-- A text that spells bytes, blanks around it apart, is read as a key if there are thirty-two of
them, and otherwise refused for their number. -/
theorem parse_of_spells (hcore : IsCore core s.toList) (h : Spells bytes core) :
    parse s = ofBytes bytes := by
  rw [parse, ← isCore_iff.1 hcore, Base64.decode_eq_ok_iff.2 h]

/-- A text that spells no bytes, blanks around it apart, is no base64. -/
theorem parse_of_not_spells (hcore : IsCore core s.toList) (h : ∀ bytes, ¬Spells bytes core) :
    ∃ reason, parse s = .error (.notBase64 reason) := by
  rw [parse, ← isCore_iff.1 hcore]
  cases hread : Base64.decode (Utf8.encode core) with
  | ok bytes => exact absurd (Base64.decode_eq_ok_iff.1 hread) (h bytes)
  | error reason => exact ⟨reason, rfl⟩

/-- A text is read as what its core spells, or is no base64. The core is the text without blanks
around it. -/
theorem parse_cases (s : String) :
    (∃ core bytes, IsCore core s.toList ∧ Spells bytes core ∧ parse s = ofBytes bytes) ∨
      ∃ reason, parse s = .error (.notBase64 reason) := by
  have hcore : IsCore (Text.trim s.toList) s.toList := isCore_iff.2 rfl
  by_cases h : ∃ bytes, Spells bytes (Text.trim s.toList)
  · obtain ⟨bytes, hspells⟩ := h
    exact .inl ⟨_, bytes, hcore, hspells, parse_of_spells hcore hspells⟩
  · exact .inr (parse_of_not_spells hcore (not_exists.1 h))

/-- Bytes are a key if they are the key's own: `ofBytes bytes = .ok key ↔ bytes = key.bytes`. -/
theorem ofBytes_eq_ok {key : KeyBytes} : ofBytes bytes = .ok key ↔ bytes = key.bytes := by
  rw [ofBytes]
  constructor
  · intro h
    split at h
    · cases h
      rfl
    · cases h
  · rintro rfl
    exact dif_pos key.length_eq

/-- Only another number of bytes than thirty-two is refused, and for that number. -/
theorem ofBytes_eq_error {e : KeyError} :
    ofBytes bytes = .error e ↔ bytes.length ≠ 32 ∧ e = .wrongLength bytes.length := by
  rw [ofBytes]
  constructor
  · intro h
    split at h
    · cases h
    · next hlength =>
      cases h
      exact ⟨hlength, rfl⟩
  · rintro ⟨hlength, rfl⟩
    exact dif_neg hlength

end KeyBytes

/-- How keys of a kind, with their bytes and texts, are read. -/
structure ReadsKeys {κ : Type} (parse : String → Except KeyError κ) (bytes : κ → Bytes)
    (text : κ → String) : Prop where
  /-- The text of a key spells its bytes. -/
  spelled : ∀ key, Spells (bytes key) (text key).toList
  /-- Blanks around it apart, only its own text is read as a key. -/
  read : ∀ s key, parse s = .ok key ↔ IsCore (text key).toList s.toList
  /-- The text of any other number of bytes is refused for that number. -/
  wrongLength : ∀ s size, parse s = .error (.wrongLength size) ↔
    size ≠ 32 ∧ ∃ core bytes, IsCore core s.toList ∧ Spells bytes core ∧ bytes.length = size
  /-- A text of no bytes is no base64. -/
  notBase64 : ∀ s, (∃ reason, parse s = .error (.notBase64 reason)) ↔
    ∀ core bytes, IsCore core s.toList → ¬Spells bytes core

/-- The bytes of keys are read so. Public and private keys are read as these are. -/
theorem KeyBytes.readsKeys : ReadsKeys KeyBytes.parse KeyBytes.bytes KeyBytes.toBase64 := by
  have hspelled : ∀ key : KeyBytes, Spells key.bytes key.toBase64.toList :=
    fun key => Base64.spells_iff.2 rfl
  refine ⟨hspelled, fun s key => ⟨fun h => ?_, fun hcore => ?_⟩,
    fun s size => ⟨fun h => ?_, ?_⟩, fun s => ⟨?_, fun hnone => ?_⟩⟩
  -- what the text spells is the key's own bytes, so its core is the one text of them
  · rcases parse_cases s with ⟨core, bytes, hcore, hspells, hparse⟩ | ⟨reason, hparse⟩
    · rw [hparse, ofBytes_eq_ok] at h
      rw [h] at hspells
      rwa [(hspelled key).unique hspells]
    · rw [hparse] at h
      cases h
  · rw [parse_of_spells hcore (hspelled key)]
    exact ofBytes_eq_ok.2 rfl
  · rcases parse_cases s with ⟨core, bytes, hcore, hspells, hparse⟩ | ⟨reason, hparse⟩
    · rw [hparse, ofBytes_eq_error] at h
      obtain ⟨hlength, hsize⟩ := h
      cases hsize
      exact ⟨hlength, core, bytes, hcore, hspells, rfl⟩
    · rw [hparse] at h
      cases h
  · rintro ⟨hsize, core, bytes, hcore, hspells, rfl⟩
    rw [parse_of_spells hcore hspells]
    exact ofBytes_eq_error.2 ⟨hsize, rfl⟩
  -- a text that spells bytes fails for their number at most
  · rintro ⟨reason, h⟩ core bytes hcore hspells
    rw [parse_of_spells hcore hspells, ofBytes_eq_error] at h
    cases h.2
  · exact parse_of_not_spells (isCore_iff.2 rfl) fun bytes => hnone _ bytes (isCore_iff.2 rfl)

/-- Keys that are made of the bytes, and can be turned into them again, are read as the
bytes are. -/
theorem readsKeys_map {κ : Type} (mk : KeyBytes → κ) (toKeyBytes : κ → KeyBytes)
    (hmk : ∀ key, mk (toKeyBytes key) = key) (hto : ∀ key, toKeyBytes (mk key) = key) :
    ReadsKeys (fun s => (KeyBytes.parse s).map mk) (fun key => (toKeyBytes key).bytes)
      (fun key => (toKeyBytes key).toBase64) := by
  have herror : ∀ s e, (KeyBytes.parse s).map mk = .error e ↔ KeyBytes.parse s = .error e := by
    intro s e
    cases KeyBytes.parse s <;> simp [Except.map]
  refine ⟨fun key => KeyBytes.readsKeys.spelled _, fun s key => ?_, fun s size => ?_, fun s => ?_⟩
  · rw [← KeyBytes.readsKeys.read]
    constructor
    · intro h
      obtain ⟨bytes, hread, rfl⟩ := exists_of_map_ok h
      rw [hread, hto]
    · intro h
      rw [h]
      exact congrArg Except.ok (hmk key)
  · rw [herror]
    exact KeyBytes.readsKeys.wrongLength s size
  · simp only [herror]
    exact KeyBytes.readsKeys.notBase64 s

/-- **Every key has exactly one text.** A public or a private key is read from a text if and only if
that is, without the blanks around it, the text that is written for the key. The text of any other
number of bytes is refused for that number, and every other text is no base64. The text of some
bytes is told by its bits: six in each symbol, zeros where the last symbol has more than the bytes
need, and padding up to a whole quad. -/
theorem key_texts_exact :
    ReadsKeys PublicKey.parse PublicKey.bytes PublicKey.toBase64 ∧
      ReadsKeys PrivateKey.parse PrivateKey.bytes PrivateKey.toBase64 :=
  ⟨readsKeys_map PublicKey.mk PublicKey.toKeyBytes (fun _ => rfl) fun _ => rfl,
    readsKeys_map PrivateKey.mk PrivateKey.toKeyBytes (fun _ => rfl) fun _ => rfl⟩

end WireKeeper
