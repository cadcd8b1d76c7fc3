import WireKeeper.Key
import WireKeeper.Proofs.Basic
import WireKeeper.Proofs.Bytes.Utf8
import WireKeeper.Proofs.Text.Trim

/-! # Base64 is read back

A text that was written is read as the bytes it was written from, and no other text is read as them.
The writer and the reader both go from quad to quad; the last quad may be padded.

* `joinSymbols_one`, `joinSymbols_two`, `joinSymbols_three`: the symbols of one, two, three bytes;
* `decodeLast_append`, `of_decodeLast`: a last quad;
* `decode_encodeBytes`, `eq_encodeBytes_of_decode`: a whole text;
* `isBlank_of_mem_encode`, `encode_toList_encode`, `decode_encode_eq_ok`: the characters of a text;
* `KeyBytes.parse_toBase64`: the text of a key. -/

namespace WireKeeper.Base64

variable {offset n : Nat} {b : UInt8}

/-- A symbol is no padding: the alphabet has no `=`, so `symbol n ≠ pad` for each of its
64 values. -/
theorem symbol_ne_pad (h : n < 64) : symbol n ≠ pad := by
  intro heq
  have hvalue := value?_symbol h
  rw [heq] at hvalue
  cases hvalue

/-- Symbols are read as their values, wherever they stand: `readSymbols offset (l.map symbol) = .ok
l`. -/
theorem readSymbols_map {l : List Nat} (h : ∀ n ∈ l, n < 64) (offset : Nat) :
    readSymbols offset (l.map symbol) = .ok l := by
  induction l generalizing offset with
  | nil => rfl
  | cons n ns ih =>
    have hn : readSymbol offset (symbol n) = .ok n := by
      rw [readSymbol, value?_symbol (h n List.mem_cons_self)]
    rw [List.map_cons, readSymbols, hn, ih fun m hm => h m (List.mem_cons_of_mem n hm)]
    rfl

/-- A byte that is put together from its own bits is that byte, whatever stands above the eighth
bit. -/
theorem ofNat_eq {a : UInt8} (h : n % 256 = a.toNat) : UInt8.ofNat n = a := by
  apply UInt8.toNat_inj.1
  rw [UInt8.toNat_ofNat']
  exact h

/-- The two symbols of one byte give the byte back and leave no bits over. -/
theorem joinSymbols_one (a : UInt8) :
    joinSymbols [a.toNat / 4, a.toNat % 4 * 16] = ([a], 0) := by
  have ha := a.toNat_lt
  have hbyte : UInt8.ofNat (a.toNat / 4 * 4 + a.toNat % 4 * 16 / 16) = a := ofNat_eq (by omega)
  have hrest : a.toNat % 4 * 16 % 16 = 0 := by omega
  rw [joinSymbols, hbyte, hrest]

/-- The three symbols of two bytes give the bytes back and leave no bits over. -/
theorem joinSymbols_two (a b : UInt8) :
    joinSymbols [a.toNat / 4, a.toNat % 4 * 16 + b.toNat / 16, b.toNat % 16 * 4] =
      ([a, b], 0) := by
  have ha := a.toNat_lt
  have hb := b.toNat_lt
  have hfirst :
      UInt8.ofNat (a.toNat / 4 * 4 + (a.toNat % 4 * 16 + b.toNat / 16) / 16) = a :=
    ofNat_eq (by omega)
  have hsecond :
      UInt8.ofNat ((a.toNat % 4 * 16 + b.toNat / 16) * 16 + b.toNat % 16 * 4 / 4) = b :=
    ofNat_eq (by omega)
  have hrest : b.toNat % 16 * 4 % 4 = 0 := by omega
  rw [joinSymbols, hfirst, hsecond, hrest]

/-- The four symbols of three bytes give the bytes back; twenty-four bits fill them exactly. -/
theorem joinSymbols_three (a b c : UInt8) :
    joinSymbols [a.toNat / 4, a.toNat % 4 * 16 + b.toNat / 16, b.toNat % 16 * 4 + c.toNat / 64,
      c.toNat % 64] = ([a, b, c], 0) := by
  have ha := a.toNat_lt
  have hb := b.toNat_lt
  have hc := c.toNat_lt
  have hfirst :
      UInt8.ofNat (a.toNat / 4 * 4 + (a.toNat % 4 * 16 + b.toNat / 16) / 16) = a :=
    ofNat_eq (by omega)
  have hsecond :
      UInt8.ofNat ((a.toNat % 4 * 16 + b.toNat / 16) * 16 +
        (b.toNat % 16 * 4 + c.toNat / 64) / 4) = b := ofNat_eq (by omega)
  have hthird :
      UInt8.ofNat ((b.toNat % 16 * 4 + c.toNat / 64) * 64 + c.toNat % 64) = c :=
    ofNat_eq (by omega)
  rw [joinSymbols, hfirst, hsecond, hthird]

/-- A last quad: at least two symbols that leave no bits over, and as many `=` as fill it, are read
as the bytes that `joinSymbols` makes of the symbols. -/
theorem decodeLast_append {l : List Nat} (hl : ∀ n ∈ l, n < 64) {k : Nat}
    (htwo : 2 ≤ l.length) (hquad : l.length + k = 4) {bytes : Bytes}
    (hjoin : joinSymbols l = (bytes, 0)) :
    decodeLast offset (l.map symbol ++ List.replicate k pad) = .ok bytes := by
  have hsymbols : ∀ b ∈ l.map symbol, decide (b ≠ pad) = true := by
    intro b hb
    obtain ⟨n, hn, rfl⟩ := List.mem_map.1 hb
    simpa using symbol_ne_pad (hl n hn)
  have hbody : (l.map symbol ++ List.replicate k pad).takeWhile (· ≠ pad) = l.map symbol := by
    rw [List.takeWhile_append_of_pos hsymbols]
    simp
  have hpadding :
      (l.map symbol ++ List.replicate k pad).dropWhile (· ≠ pad) = List.replicate k pad := by
    rw [List.dropWhile_append_of_pos hsymbols]
    simp
  have hnopad : (List.replicate k pad).any (· ≠ pad) = false := by simp
  -- the two faults of length and the two of leftover bits and of size are looked for in turn
  rw [decodeLast, hbody, hpadding, readSymbols_map hl]
  simp only [hnopad, hjoin, List.length_append, List.length_map, List.length_replicate, hquad]
  rw [if_neg, if_neg, if_neg (by decide), if_neg (by decide)]
  · simp
    omega
  · simp
    omega

/-- Reading from the left gives the bytes back, wherever it begins: `decodeFrom offset (encodeBytes
bytes) = .ok bytes`. The induction is on the groups of three bytes that are written. -/
theorem decodeFrom_encodeBytes (bytes : Bytes) (offset : Nat) :
    decodeFrom offset (encodeBytes bytes) = .ok bytes := by
  induction bytes using encodeBytes.induct generalizing offset with
  | case1 => rfl
  | case2 a =>
    have ha := a.toNat_lt
    exact decodeLast_append (l := [a.toNat / 4, a.toNat % 4 * 16]) (k := 2) (by simp; omega)
      (by simp) rfl (joinSymbols_one a)
  | case3 a b =>
    have ha := a.toNat_lt
    have hb := b.toNat_lt
    exact decodeLast_append
      (l := [a.toNat / 4, a.toNat % 4 * 16 + b.toNat / 16, b.toNat % 16 * 4]) (k := 1)
      (by simp; omega) (by simp) rfl (joinSymbols_two a b)
  | case4 a b c rest ih =>
    have ha := a.toNat_lt
    have hb := b.toNat_lt
    have hsmall : ∀ n ∈ [a.toNat / 4, a.toNat % 4 * 16 + b.toNat / 16,
        b.toNat % 16 * 4 + c.toNat / 64, c.toNat % 64], n < 64 := by
      have hc := c.toNat_lt
      simp
      omega
    cases hrest : encodeBytes rest with
    | nil =>
      -- the quad is the last one, and full
      have hnil : rest = [] := by
        have hread := ih 0
        rw [hrest] at hread
        cases hread
        rfl
      subst hnil
      exact decodeLast_append (k := 0) hsmall (by simp) rfl (joinSymbols_three a b c)
    | cons x xs =>
      have hquad := readSymbols_map hsmall offset
      simp only [List.map_cons, List.map_nil] at hquad
      rw [encodeBytes, hrest, decodeFrom, hquad, ← hrest]
      simp only [bind, Except.bind, ih, joinSymbols_three]
      rfl

/-- Every text is made of quads: its length is a multiple of four. -/
theorem length_encodeBytes (bytes : Bytes) : (encodeBytes bytes).length % 4 = 0 := by
  induction bytes using encodeBytes.induct with
  | case1 => rfl
  | case2 a => simp [encodeBytes]
  | case3 a b => simp [encodeBytes]
  | case4 a b c rest ih =>
    simp only [encodeBytes, List.length_cons]
    omega

/-- A text that was written is read as the bytes it was written from: `decode (encodeBytes bytes) =
.ok bytes`. -/
theorem decode_encodeBytes (bytes : Bytes) : decode (encodeBytes bytes) = .ok bytes := by
  rw [decode]
  cases hlast : (encodeBytes bytes).getLast? with
  | none =>
    have hread := decodeFrom_encodeBytes bytes 0
    rw [List.getLast?_eq_none_iff.1 hlast] at hread
    exact hread
  | some last =>
    have hquads := length_encodeBytes bytes
    simp only [hquads]
    exact decodeFrom_encodeBytes bytes 0

/-! ## Texts that are read -/

/-- Only its symbol has a value: if `value? b = some n`, then `n < 64` and `b` is `symbol n`. -/
theorem symbol_of_value? (h : value? b = some n) : n < 64 ∧ symbol n = b := by
  have hall : ∀ m < 256, ∀ v ∈ value? (UInt8.ofNat m), v < 64 ∧ symbol v = UInt8.ofNat m := by
    decide +kernel
  have hbyte := hall b.toNat b.toNat_lt n
  rw [UInt8.ofNat_toNat] at hbyte
  exact hbyte h

/-- What is read as values are their symbols: `readSymbols` gives values below 64 only, and the text
was `l.map symbol`. -/
theorem of_readSymbols {text : Bytes} {l : List Nat} (h : readSymbols offset text = .ok l) :
    (∀ n ∈ l, n < 64) ∧ text = l.map symbol := by
  induction text generalizing offset l with
  | nil =>
    cases h
    exact ⟨fun _ hn => absurd hn List.not_mem_nil, rfl⟩
  | cons b bs ih =>
    rw [readSymbols] at h
    obtain ⟨v, hv, h⟩ := bind_eq_ok.1 h
    obtain ⟨vs, hvs, h⟩ := bind_eq_ok.1 h
    cases h
    have hvalue : value? b = some v := by
      rw [readSymbol] at hv
      split at hv
      · next heq => rw [heq, Except.ok.inj hv]
      · cases hv
    obtain ⟨hsmall, hsymbol⟩ := symbol_of_value? hvalue
    obtain ⟨hrest, htext⟩ := ih hvs
    exact ⟨List.forall_mem_cons.2 ⟨hsmall, hrest⟩, by rw [List.map_cons, hsymbol, htext]⟩

/-- The byte of two symbols whose last four bits are zero is written with these symbols and
two `=`. -/
theorem encodeBytes_two {a b : Nat} (ha : a < 64) (hb : b < 64) (hrest : b % 16 = 0) :
    encodeBytes [UInt8.ofNat (a * 4 + b / 16)] = [symbol a, symbol b, pad, pad] := by
  have hfirst : (a * 4 + b / 16) % 256 / 4 = a := by omega
  have hsecond : (a * 4 + b / 16) % 256 % 4 * 16 = b := by omega
  simp only [encodeBytes, UInt8.toNat_ofNat', hfirst, hsecond]

/-- The bytes of three symbols whose last two bits are zero are written with these symbols and one
`=`. -/
theorem encodeBytes_three {a b c : Nat} (ha : a < 64) (hb : b < 64) (hc : c < 64)
    (hrest : c % 4 = 0) :
    encodeBytes [UInt8.ofNat (a * 4 + b / 16), UInt8.ofNat (b * 16 + c / 4)] =
      [symbol a, symbol b, symbol c, pad] := by
  have hfirst : (a * 4 + b / 16) % 256 / 4 = a := by omega
  have hsecond : (a * 4 + b / 16) % 256 % 4 * 16 + (b * 16 + c / 4) % 256 / 16 = b := by omega
  have hthird : (b * 16 + c / 4) % 256 % 16 * 4 = c := by omega
  simp only [encodeBytes, UInt8.toNat_ofNat', hfirst, hsecond, hthird]

/-- The three bytes of four symbols are written with these symbols, and more behind them with its
own text. -/
theorem encodeBytes_four {a b c d : Nat} (ha : a < 64) (hb : b < 64) (hc : c < 64) (hd : d < 64)
    (more : Bytes) :
    encodeBytes ((joinSymbols [a, b, c, d]).1 ++ more) =
      [a, b, c, d].map symbol ++ encodeBytes more := by
  have hfirst : (a * 4 + b / 16) % 256 / 4 = a := by omega
  have hsecond : (a * 4 + b / 16) % 256 % 4 * 16 + (b * 16 + c / 4) % 256 / 16 = b := by omega
  have hthird : (b * 16 + c / 4) % 256 % 16 * 4 + (c * 64 + d) % 256 / 64 = c := by omega
  have hfourth : (c * 64 + d) % 256 % 64 = d := by omega
  simp only [joinSymbols, List.cons_append, List.nil_append, encodeBytes, UInt8.toNat_ofNat',
    hfirst, hsecond, hthird, hfourth, List.map_cons, List.map_nil]

/-- The bytes of a last group whose bits are all used are written with its symbols and as much
padding as fills it. This is the other direction of `decodeLast_append`. -/
theorem encodeBytes_joinSymbols {l : List Nat} (hl : ∀ n ∈ l, n < 64) {k : Nat}
    (htwo : 2 ≤ l.length) (hquad : l.length + k = 4) {bytes : Bytes}
    (hjoin : joinSymbols l = (bytes, 0)) :
    encodeBytes bytes = l.map symbol ++ List.replicate k pad := by
  -- two, three or four symbols; five do not fit into a quad
  match l, htwo with
  | [a, b], _ =>
    simp only [List.forall_mem_cons] at hl
    obtain ⟨rfl, hrest⟩ := Prod.mk.inj hjoin
    obtain rfl : k = 2 := Nat.add_left_cancel hquad
    exact encodeBytes_two hl.1 hl.2.1 hrest
  | [a, b, c], _ =>
    simp only [List.forall_mem_cons] at hl
    obtain ⟨rfl, hrest⟩ := Prod.mk.inj hjoin
    obtain rfl : k = 1 := Nat.add_left_cancel hquad
    exact encodeBytes_three hl.1 hl.2.1 hl.2.2.1 hrest
  | [a, b, c, d], _ =>
    simp only [List.forall_mem_cons] at hl
    obtain ⟨rfl, -⟩ := Prod.mk.inj hjoin
    obtain rfl : k = 0 := Nat.add_left_cancel hquad
    exact encodeBytes_four hl.1 hl.2.1 hl.2.2.1 hl.2.2.2.1 []
  | a :: b :: c :: d :: e :: rest, _ =>
    simp only [List.length_cons] at hquad
    omega

/-- A last group is read if it is empty, or has at least two symbols that leave no bits over and
padding that fills it; then its bytes are what `joinSymbols` makes of the symbols. -/
theorem of_decodeLast {group bytes : Bytes} (h : decodeLast offset group = .ok bytes) :
    group = [] ∧ bytes = [] ∨ ∃ l k, (∀ n ∈ l, n < 64) ∧ 2 ≤ l.length ∧ (l.length + k) % 4 = 0 ∧
      joinSymbols l = (bytes, 0) ∧ group = l.map symbol ++ List.replicate k pad := by
  have happend := List.takeWhile_append_dropWhile (p := (· ≠ pad)) (l := group)
  rw [decodeLast] at h
  generalize group.takeWhile (· ≠ pad) = body at h happend
  generalize group.dropWhile (· ≠ pad) = padding at h happend
  split at h
  · cases h
  · next l hl =>
    obtain ⟨hsmall, rfl⟩ := of_readSymbols hl
    cases hjoin : joinSymbols l with
    | mk decoded unused =>
      -- none of the faults is there
      simp only [hjoin, ite_error_eq_ok, not_not, List.length_map, ← happend,
        List.length_append] at h
      obtain ⟨hpadding, hlength, hquad, rfl, h⟩ := h
      cases h
      have hpadding : ¬(padding ≠ [] ∧ (l.length < 2 ∨ ∃ b ∈ padding, b ≠ pad)) := by
        simpa using hpadding
      have hlength : ¬(group ≠ [] ∧ l.length < 2) := by
        rw [← happend]
        simpa using hlength
      have hpad : padding = List.replicate padding.length pad := by
        refine List.eq_replicate_iff.2 ⟨rfl, fun b hb => ?_⟩
        by_contra hne
        exact hpadding ⟨List.ne_nil_of_mem hb, .inr ⟨b, hb, hne⟩⟩
      -- fewer than two symbols are forgiven to the empty group alone
      by_cases htwo : 2 ≤ l.length
      · rw [hpad] at happend
        exact .inr ⟨l, padding.length, hsmall, htwo, hquad, hjoin, happend.symm⟩
      · have hempty : group = [] := by
          by_contra hne
          exact hlength ⟨hne, Nat.lt_of_not_le htwo⟩
        rw [hempty, List.append_eq_nil_iff, List.map_eq_nil_iff] at happend
        rw [happend.1] at hjoin
        exact .inl ⟨hempty, (congrArg Prod.fst hjoin).symm⟩

/-- A text that is read from the left is the text of its bytes: `text = encodeBytes bytes`. The
induction is on the quads that are read, of which all but the last have no padding. -/
theorem eq_encodeBytes_of_decodeFrom {text bytes : Bytes} (h : decodeFrom offset text = .ok bytes) :
    text = encodeBytes bytes := by
  induction offset, text using decodeFrom.induct generalizing bytes with
  | case1 offset a b c d e rest ih =>
    rw [decodeFrom] at h
    obtain ⟨l, hl, h⟩ := bind_eq_ok.1 h
    obtain ⟨more, hmore, h⟩ := bind_eq_ok.1 h
    cases h
    obtain ⟨hsmall, hquad⟩ := of_readSymbols hl
    obtain ⟨v₁, v₂, v₃, v₄, rfl⟩ : ∃ v₁ v₂ v₃ v₄, l = [v₁, v₂, v₃, v₄] :=
      List.length_eq_four.1 (by simpa using (congrArg List.length hquad).symm)
    simp only [List.forall_mem_cons] at hsmall
    obtain ⟨h₁, h₂, h₃, h₄, -⟩ := hsmall
    rw [encodeBytes_four h₁ h₂ h₃ h₄, ← hquad, ← ih hmore]
    rfl
  | case2 offset group hshort =>
    -- what is not longer than a quad is a last group, and then its padding is known
    have hsize : group.length ≤ 4 := by
      match group, hshort with
      | [], _ | [_], _ | [_, _], _ | [_, _, _], _ | [_, _, _, _], _ => simp
      | a :: b :: c :: d :: e :: rest, hshort => exact absurd rfl (hshort a b c d e rest)
    have hlast : decodeFrom offset group = decodeLast offset group := by
      rw [decodeFrom]
      exact hshort
    rw [hlast] at h
    rcases of_decodeLast h with ⟨rfl, rfl⟩ | ⟨l, k, hsmall, htwo, hquad, hjoin, rfl⟩
    · rfl
    · rw [List.length_append, List.length_map, List.length_replicate] at hsize
      exact (encodeBytes_joinSymbols hsmall htwo (by omega) hjoin).symm

/-- A text that is read is the text of its bytes, so no bytes have two texts and no two texts the
same bytes. -/
theorem eq_encodeBytes_of_decode {text bytes : Bytes} (h : decode text = .ok bytes) :
    text = encodeBytes bytes := by
  rw [decode] at h
  cases hlast : text.getLast? with
  | none =>
    rw [hlast] at h
    cases h
    exact List.getLast?_eq_none_iff.1 hlast
  | some last =>
    simp only [hlast, ite_error_eq_ok] at h
    exact eq_encodeBytes_of_decodeFrom h.2

/-! ## Characters -/

/-- What a text is made of: symbols of the alphabet and padding, and nothing else. -/
theorem mem_encodeBytes {bytes : Bytes} (h : b ∈ encodeBytes bytes) :
    b = pad ∨ ∃ n < 64, b = symbol n := by
  induction bytes using encodeBytes.induct with
  | case1 => exact absurd h List.not_mem_nil
  -- one byte and two bytes at the end are padded, three bytes are four symbols
  | case2 a =>
    have ha := a.toNat_lt
    simp only [encodeBytes, List.mem_cons, List.not_mem_nil, or_false] at h
    rcases h with rfl | rfl | rfl | rfl
    · exact .inr ⟨_, by omega, rfl⟩
    · exact .inr ⟨_, by omega, rfl⟩
    · exact .inl rfl
    · exact .inl rfl
  | case3 a b' =>
    have ha := a.toNat_lt
    have hb := b'.toNat_lt
    simp only [encodeBytes, List.mem_cons, List.not_mem_nil, or_false] at h
    rcases h with rfl | rfl | rfl | rfl
    · exact .inr ⟨_, by omega, rfl⟩
    · exact .inr ⟨_, by omega, rfl⟩
    · exact .inr ⟨_, by omega, rfl⟩
    · exact .inl rfl
  | case4 a b' c rest ih =>
    have ha := a.toNat_lt
    have hb := b'.toNat_lt
    have hc := c.toNat_lt
    simp only [encodeBytes, List.mem_cons] at h
    rcases h with rfl | rfl | rfl | rfl | h
    · exact .inr ⟨_, by omega, rfl⟩
    · exact .inr ⟨_, by omega, rfl⟩
    · exact .inr ⟨_, by omega, rfl⟩
    · exact .inr ⟨_, by omega, rfl⟩
    · exact ih h

/-- The character of a byte of a text is ASCII and not blank: it is encoded as that one byte. -/
theorem char_of_mem_encodeBytes {bytes : Bytes} (h : b ∈ encodeBytes bytes) :
    String.utf8EncodeChar (Char.ofNat b.toNat) = [b] ∧
      Text.isBlank (Char.ofNat b.toNat) = false := by
  have hall : ∀ m : Fin 64, String.utf8EncodeChar (Char.ofNat (symbol m).toNat) = [symbol m] ∧
      Text.isBlank (Char.ofNat (symbol m).toNat) = false := by decide
  rcases mem_encodeBytes h with rfl | ⟨n, hn, rfl⟩
  · decide
  · exact hall ⟨n, hn⟩

/-- The characters of a text are those of its bytes, one for each byte. -/
theorem toList_encode (bytes : Bytes) :
    (encode bytes).toList = (encodeBytes bytes).map fun b => Char.ofNat b.toNat := by
  rw [encode, String.toList_ofList]

/-- No character of a text is blank, so a text is not changed by trimming and not parted
into words. -/
theorem isBlank_of_mem_encode {bytes : Bytes} {c : Char} (h : c ∈ (encode bytes).toList) :
    Text.isBlank c = false := by
  rw [toList_encode] at h
  obtain ⟨b, hb, rfl⟩ := List.mem_map.1 h
  exact (char_of_mem_encodeBytes hb).2

/-- The bytes of a text are those that were written: `Utf8.encode` of its characters gives
`encodeBytes bytes`. -/
theorem encode_toList_encode (bytes : Bytes) :
    Utf8.encode (encode bytes).toList = encodeBytes bytes := by
  have hmap : ∀ l : Bytes, (∀ b ∈ l, String.utf8EncodeChar (Char.ofNat b.toNat) = [b]) →
      Utf8.encode (l.map fun b => Char.ofNat b.toNat) = l := by
    intro l hl
    induction l with
    | nil => rfl
    | cons x xs ih =>
      have hrest := ih fun b hb => hl b (List.mem_cons_of_mem x hb)
      rw [Utf8.encode] at hrest
      rw [List.map_cons, Utf8.encode, List.flatMap_cons, hl x List.mem_cons_self, hrest]
      rfl
  rw [toList_encode, hmap _ fun b hb => (char_of_mem_encodeBytes hb).1]

/-- Exactly the text that is written for some bytes is read as them: `decode` accepts no second
spelling. -/
theorem decode_encode_eq_ok {text : List Char} {bytes : Bytes} :
    decode (Utf8.encode text) = .ok bytes ↔ text = (encode bytes).toList := by
  constructor
  · intro h
    rw [← Utf8.encode_inj, encode_toList_encode]
    exact eq_encodeBytes_of_decode h
  · rintro rfl
    rw [encode_toList_encode, decode_encodeBytes]

end WireKeeper.Base64

namespace WireKeeper

open Text (Trimmed trimmed_of_forall)

/-- The text of a key has no blanks at its ends, so it is a value of a configuration file. -/
theorem KeyBytes.trimmed_toBase64 (key : KeyBytes) : Trimmed key.toBase64.toList :=
  trimmed_of_forall fun _ => Base64.isBlank_of_mem_encode

/-- The text of a key has no line feed, so it is one line of a file. -/
theorem KeyBytes.feed_not_mem_toBase64 (key : KeyBytes) : '\n' ∉ key.toBase64.toList := by
  intro h
  have hblank := Base64.isBlank_of_mem_encode h
  cases hblank

/-- The text of a key is read as the key: `parse key.toBase64 = .ok key`, as its bytes have the
right number. -/
theorem KeyBytes.parse_toBase64 (key : KeyBytes) : parse key.toBase64 = .ok key := by
  rw [parse, key.trimmed_toBase64.trim_eq, toBase64, Base64.encode_toList_encode,
    Base64.decode_encodeBytes]
  simp [ofBytes, key.length_eq]

/-- The text of a public key is read as the key, as all 32 bytes are kept. -/
theorem PublicKey.parse_toBase64 (key : PublicKey) : parse key.toBase64 = .ok key := by
  rw [parse, toBase64, KeyBytes.parse_toBase64]
  rfl

/-- The text of a private key is read as the key, as all 32 bytes are kept. -/
theorem PrivateKey.parse_toBase64 (key : PrivateKey) : parse key.toBase64 = .ok key := by
  rw [parse, toBase64, KeyBytes.parse_toBase64]
  rfl

end WireKeeper
