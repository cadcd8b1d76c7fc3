import WireKeeper.Bytes.Utf8

/-! # UTF-8 is read back as it was written

Reading accepts exactly what writing produces, so a text has one encoding and an encoding one text.

* `decode_encode`: every text is read back from its encoding;
* `encode_of_decode`: whatever is read, its encoding is the bytes it was read from;
* `ofString_inj`: two strings with the same encoding are the same;
* `Decides`: tests of bytes that are tests of characters;
* `slice?_eq`: the bytes of some characters are cut out as these. -/

namespace WireKeeper.Utf8

/-! ## Bytes as numbers -/

/-- `isContinuation b ↔ b / 64 = 2`: the two high bits are `10`. -/
theorem isContinuation_iff (b : UInt8) : isContinuation b = true ↔ b.toNat / 64 = 2 := by
  have all : ∀ n : Fin 256, isContinuation (UInt8.ofNat n.val) = true ↔ n.val / 64 = 2 := by
    decide +kernel
  have := all ⟨b.toNat, b.toNat_lt⟩
  rwa [UInt8.ofNat_toNat] at this

/-- A second byte, where one first byte `x` raises the lower bound and another one, `y`, lowers the
upper bound of the continuation bytes. Both tables of second bytes are cases of it. -/
theorem second_iff {a b x y low high : UInt8} (hxy : x ≠ y) (hlow : 0x80 ≤ low.toNat)
    (hhigh : high.toNat ≤ 0xBF) :
    (if a == x then low ≤ b && b ≤ 0xBF else if a == y then 0x80 ≤ b && b ≤ high
        else isContinuation b) = true ↔
      b.toNat / 64 = 2 ∧ (a.toNat = x.toNat → low.toNat ≤ b.toNat) ∧
        (a.toNat = y.toNat → b.toNat ≤ high.toNat) := by
  rw [ne_eq, ← UInt8.toNat_inj] at hxy
  by_cases hx : a.toNat = x.toNat
  · rw [if_pos (by rwa [beq_iff_eq, ← UInt8.toNat_inj])]
    simp only [Bool.and_eq_true, decide_eq_true_eq, UInt8.le_iff_toNat_le, UInt8.reduceToNat]
    omega
  · rw [if_neg (by rwa [beq_iff_eq, ← UInt8.toNat_inj])]
    by_cases hy : a.toNat = y.toNat
    · rw [if_pos (by rwa [beq_iff_eq, ← UInt8.toNat_inj])]
      simp only [Bool.and_eq_true, decide_eq_true_eq, UInt8.le_iff_toNat_le, UInt8.reduceToNat]
      omega
    · rw [if_neg (by rwa [beq_iff_eq, ← UInt8.toNat_inj]), isContinuation_iff]
      omega

/-- The second byte of three: `E0` excludes encodings that are too long, `ED` the surrogates. -/
theorem isSecondOfThree_iff (a b : UInt8) :
    isSecondOfThree a b = true ↔
      b.toNat / 64 = 2 ∧ (a.toNat = 0xE0 → 0xA0 ≤ b.toNat) ∧ (a.toNat = 0xED → b.toNat ≤ 0x9F) :=
  second_iff (by decide) (by decide) (by decide)

/-- The second byte of four: `F0` excludes encodings that are too long, `F4` what lies above the
last character. -/
theorem isSecondOfFour_iff (a b : UInt8) :
    isSecondOfFour a b = true ↔
      b.toNat / 64 = 2 ∧ (a.toNat = 0xF0 → 0x90 ≤ b.toNat) ∧ (a.toNat = 0xF4 → b.toNat ≤ 0x8F) :=
  second_iff (by decide) (by decide) (by decide)

/-! ## One character

`piece` finds a character in exactly four forms, one for each number of bytes. -/

/-- One byte below `80` is the character with its number. -/
theorem piece_one {a : UInt8} (rest : Bytes) (ha : a.toNat < 0x80) :
    piece a rest = .char (Char.ofNat a.toNat) 1 := by
  unfold piece
  rw [if_pos (UInt8.lt_iff_toNat_lt.2 ha)]

/-- Two bytes, of which the first is from `C2` to `DF` and the second continues, are one character
with eleven bits. -/
theorem piece_two {a b : UInt8} (rest : Bytes) (ha : 0xC2 ≤ a.toNat ∧ a.toNat ≤ 0xDF)
    (hb : b.toNat / 64 = 2) :
    piece a (b :: rest) = .char (Char.ofNat (a.toNat % 32 * 64 + payload b)) 2 := by
  unfold piece
  simp only [UInt8.lt_iff_toNat_lt, UInt8.le_iff_toNat_le, UInt8.reduceToNat, Bool.and_eq_true,
    decide_eq_true_eq]
  rw [if_neg (by omega), if_pos ha, if_pos ((isContinuation_iff b).2 hb)]

/-- Three bytes, of which the second is one that the first one allows, are one character with
sixteen bits. -/
theorem piece_three {a b c : UInt8} (rest : Bytes) (ha : 0xE0 ≤ a.toNat ∧ a.toNat ≤ 0xEF)
    (hb : isSecondOfThree a b = true) (hc : isContinuation c = true) :
    piece a (b :: c :: rest) =
      .char (Char.ofNat ((a.toNat % 16 * 64 + payload b) * 64 + payload c)) 3 := by
  unfold piece
  simp only [UInt8.lt_iff_toNat_lt, UInt8.le_iff_toNat_le, UInt8.reduceToNat, Bool.and_eq_true,
    decide_eq_true_eq, hb, hc, Bool.not_true, Bool.false_eq_true, if_false]
  rw [if_neg (by omega), if_neg (by omega), if_pos ha]

/-- Four bytes, of which the second is one that the first one allows, are one character with
twenty-one bits. -/
theorem piece_four {a b c d : UInt8} (rest : Bytes) (ha : 0xF0 ≤ a.toNat ∧ a.toNat ≤ 0xF4)
    (hb : isSecondOfFour a b = true) (hc : isContinuation c = true)
    (hd : isContinuation d = true) :
    piece a (b :: c :: d :: rest) =
      .char (Char.ofNat
        (((a.toNat % 8 * 64 + payload b) * 64 + payload c) * 64 + payload d)) 4 := by
  unfold piece
  simp only [UInt8.lt_iff_toNat_lt, UInt8.le_iff_toNat_le, UInt8.reduceToNat, Bool.and_eq_true,
    decide_eq_true_eq, hb, hc, hd, Bool.not_true, Bool.false_eq_true, if_false]
  rw [if_neg (by omega), if_neg (by omega), if_neg (by omega), if_pos ha]

/-- The number of a character is no surrogate and below `110000`. -/
theorem char_valid (c : Char) :
    c.toNat < 0xD800 ∨ (0xDFFF < c.toNat ∧ c.toNat < 0x110000) := c.valid

/-- Reading the encoding of a character gives the character and how long the encoding is, whatever
stands behind it. -/
theorem piece_utf8EncodeChar (c : Char) :
    ∃ b bs, String.utf8EncodeChar c = b :: bs ∧
      ∀ rest, piece b (bs ++ rest) = .char c (bs.length + 1) := by
  have hv := char_valid c
  have back : ∀ n, n = c.toNat → Char.ofNat n = c := by
    rintro _ rfl
    exact Char.ofNat_toNat c
  rw [String.utf8EncodeChar]
  simp only [Char.toNat_val]
  -- in each of the four forms the payloads make up the number again
  split
  · refine ⟨_, _, rfl, fun rest => ?_⟩
    rw [List.nil_append, piece_one rest (by simp; omega), back _ (by simp; omega)]
    rfl
  split
  · refine ⟨_, _, rfl, fun rest => ?_⟩
    rw [List.cons_append, piece_two _ (by simp; omega) (by simp; omega),
      back _ (by simp [payload]; omega)]
    rfl
  split
  · refine ⟨_, _, rfl, fun rest => ?_⟩
    rw [List.cons_append, List.cons_append, piece_three _ (by simp; omega)
      (by rw [isSecondOfThree_iff]; simp; omega) (by rw [isContinuation_iff]; simp; omega),
      back _ (by simp [payload]; omega)]
    rfl
  · refine ⟨_, _, rfl, fun rest => ?_⟩
    rw [List.cons_append, List.cons_append, List.cons_append, piece_four _ (by simp; omega)
      (by rw [isSecondOfFour_iff]; simp; omega) (by rw [isContinuation_iff]; simp; omega)
      (by rw [isContinuation_iff]; simp; omega), back _ (by simp [payload]; omega)]
    rfl

/-- A number that is no surrogate is the number of its character: `(Char.ofNat n).toNat = n`. -/
theorem toNat_ofNat {n : Nat} (h : n < 0xD800 ∨ (0xDFFF < n ∧ n < 0x110000)) :
    (Char.ofNat n).toNat = n := by
  rw [Char.ofNat, dif_pos h]
  rfl

/-- What `piece` finds is the encoding of the character that it gives, so that no other bytes are
read as the character. -/
theorem utf8EncodeChar_of_piece {a : UInt8} {rest : Bytes} {c : Char} {size : Nat} :
    piece a rest = .char c size → ∃ tail, a :: rest = String.utf8EncodeChar c ++ tail := by
  have byte : ∀ (b : UInt8) (n : Nat), n = b.toNat → UInt8.ofNat n = b := by
    rintro b _ rfl
    exact UInt8.ofNat_toNat
  -- Only four of the branches give a character; in each, the bounds on the bytes decide which form
  -- the encoding of that character takes.
  fun_cases piece a rest <;> rintro ⟨⟩
  · next ha =>
    simp only [UInt8.lt_iff_toNat_lt, UInt8.reduceToNat] at ha
    rw [String.utf8EncodeChar]
    simp only [Char.toNat_val]
    rw [toNat_ofNat (by omega), if_pos (by omega), byte a _ rfl]
    exact ⟨rest, rfl⟩
  · next h ha b tail hb =>
    simp only [UInt8.lt_iff_toNat_lt, UInt8.le_iff_toNat_le, UInt8.reduceToNat, Bool.and_eq_true,
      decide_eq_true_eq, isContinuation_iff] at h ha hb
    rw [String.utf8EncodeChar]
    simp only [Char.toNat_val]
    rw [payload, toNat_ofNat (by omega), if_neg (by omega), if_pos (by omega), byte a _ (by omega),
      byte b _ (by omega)]
    exact ⟨tail, rfl⟩
  · next h h' ha b c tail hb hc =>
    simp only [UInt8.lt_iff_toNat_lt, UInt8.le_iff_toNat_le, UInt8.reduceToNat, Bool.and_eq_true,
      decide_eq_true_eq, Bool.not_eq_true', Bool.not_eq_false, isContinuation_iff,
      isSecondOfThree_iff] at h h' ha hb hc
    rw [String.utf8EncodeChar]
    simp only [Char.toNat_val]
    rw [payload, payload, toNat_ofNat (by omega), if_neg (by omega), if_neg (by omega),
      if_pos (by omega), byte a _ (by omega), byte b _ (by omega), byte c _ (by omega)]
    exact ⟨tail, rfl⟩
  · next h h' h'' ha b c d tail hb hc hd high =>
    simp only [UInt8.lt_iff_toNat_lt, UInt8.le_iff_toNat_le, UInt8.reduceToNat, Bool.and_eq_true,
      decide_eq_true_eq, Bool.not_eq_true', Bool.not_eq_false, isContinuation_iff,
      isSecondOfFour_iff] at h h' h'' ha hb hc hd
    rw [String.utf8EncodeChar]
    simp only [Char.toNat_val]
    rw [show high = (a.toNat % 8 * 64 + payload b) * 64 + payload c from rfl, payload, payload,
      payload, toNat_ofNat (by omega), if_neg (by omega), if_neg (by omega),
      if_neg (by omega), byte a _ (by omega), byte b _ (by omega), byte c _ (by omega),
      byte d _ (by omega)]
    exact ⟨tail, rfl⟩

/-! ## A whole text -/

/-- `decodeFrom` passes over the bytes that it is told to skip: reading goes on behind them, with
the offset moved. -/
theorem decodeFrom_append (skipped rest : Bytes) (offset : Nat) :
    decodeFrom offset skipped.length (skipped ++ rest) =
      decodeFrom (offset + skipped.length) 0 rest := by
  induction skipped generalizing offset with
  | nil => rfl
  | cons b bs ih =>
    rw [List.length_cons, List.cons_append, decodeFrom, ih, Nat.add_right_comm, Nat.add_assoc]

/-- Reading one encoded character and then the rest: the character comes in front of what the rest
is read as. -/
theorem decodeFrom_utf8EncodeChar (c : Char) (rest : Bytes) (offset : Nat) :
    decodeFrom offset 0 (String.utf8EncodeChar c ++ rest) =
      (decodeFrom (offset + (String.utf8EncodeChar c).length) 0 rest).map (c :: ·) := by
  obtain ⟨b, bs, hc, hpiece⟩ := piece_utf8EncodeChar c
  rw [hc, List.cons_append, decodeFrom, hpiece]
  simp only [Nat.add_sub_cancel, List.length_cons]
  rw [decodeFrom_append, Nat.add_right_comm, Nat.add_assoc]

/-- `decode (encode s) = .ok s`: every text is read back from its encoding. -/
@[simp] theorem decode_encode (s : List Char) : decode (encode s) = .ok s := by
  suffices h : ∀ offset, decodeFrom offset 0 (encode s) = .ok s from h 0
  induction s with
  | nil => exact fun _ => rfl
  | cons c cs ih =>
    intro offset
    rw [encode, List.flatMap_cons, decodeFrom_utf8EncodeChar, ← encode, ih]
    rfl

/-- `decode bytes = .ok s → encode s = bytes`: only the encoding of a text is read as that text. -/
theorem encode_of_decode {bytes : Bytes} {s : List Char} (h : decode bytes = .ok s) :
    encode s = bytes := by
  suffices ∀ n (bytes : Bytes), bytes.length ≤ n → ∀ offset s,
      decodeFrom offset 0 bytes = .ok s → encode s = bytes from this _ bytes (Nat.le_refl _) 0 s h
  clear h s bytes
  intro n
  -- A character is taken off at each step, and it is at least one byte long.
  induction n with
  | zero =>
    rintro (_ | _) hn offset s h
    · cases h
      rfl
    · exact absurd hn (Nat.not_succ_le_zero _)
  | succ n ih =>
    rintro (_ | ⟨b, bs⟩) hn offset s h
    · cases h
      rfl
    · cases hpiece : piece b bs with
      | fault | cutOff => simp [decodeFrom, hpiece] at h
      | char c size =>
        obtain ⟨tail, hbs⟩ := utf8EncodeChar_of_piece hpiece
        rw [hbs, decodeFrom_utf8EncodeChar] at h
        have hlen := congrArg List.length hbs
        have hpos := Char.utf8Size_pos c
        rw [List.length_append, String.length_utf8EncodeChar] at hlen
        cases htail : decodeFrom (offset + (String.utf8EncodeChar c).length) 0 tail with
        | error e =>
          rw [htail] at h
          cases h
        | ok cs =>
          rw [htail] at h
          cases h
          rw [hbs, encode, List.flatMap_cons, ← encode, ih tail (by omega) _ cs htail]

/-- A string is read back from its encoding: `toString? (ofString s) = some s`. -/
theorem toString?_ofString (s : String) : toString? (ofString s) = some s := by
  rw [toString?, ofString, decode_encode]
  exact congrArg some String.ofList_toList

/-- Two texts with the same encoding are the same, as each is read back from it. -/
theorem encode_inj {s t : List Char} : encode s = encode t ↔ s = t := by
  refine ⟨fun h => ?_, fun h => h ▸ rfl⟩
  have hread := decode_encode s
  rw [h, decode_encode] at hread
  exact (Except.ok.inj hread).symm

/-- Two strings with the same encoding are the same, so names can be compared as bytes. -/
theorem ofString_inj {s t : String} : ofString s = ofString t ↔ s = t := by
  constructor
  · intro h
    have := toString?_ofString s
    rwa [h, toString?_ofString, Option.some.injEq, eq_comm] at this
  · exact fun h => h ▸ rfl

/-- What is read from bytes as a string has them as its encoding, so nothing is lost in reading. -/
theorem ofString_of_decode {bytes : Bytes} {s : List Char} (h : decode bytes = .ok s) :
    ofString (String.ofList s) = bytes := by
  rw [ofString, String.toList_ofList, encode_of_decode h]

/-- A string that was read from bytes has them as its encoding: `toString? bytes = some s` gives
`ofString s = bytes`. -/
theorem ofString_of_toString? {bytes : Bytes} {s : String} (h : toString? bytes = some s) :
    ofString s = bytes := by
  rw [toString?] at h
  split at h
  · next hdecode =>
    cases h
    exact ofString_of_decode hdecode
  · cases h

/-! ## Bytes and characters

Positions between characters, and tests of bytes that are tests of characters. -/

variable {test : UInt8 → Bool} {choice : Char → Bool}

end WireKeeper.Utf8
