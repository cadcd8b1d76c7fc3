import WireKeeper.Bytes.Hex

/-! # UTF-8

Reading and writing UTF-8.

* `encode` writes a text;
* `Piece` is what stands at the start of a non-empty string of bytes: a character, a **fault** of
  one to three bytes that no continuation can mend, or a character **cut off** by the end;
* `decode` reads a text or names the first fault;
* `slice?` cuts a part out of an encoding, by positions;
* `decodeLossy` replaces every fault by the replacement character. -/

namespace WireKeeper.Utf8

/-- The UTF-8 encoding of a text: the bytes of its characters, one to four for each, one after the
other. -/
def encode (s : List Char) : Bytes := s.flatMap String.utf8EncodeChar

/-- The UTF-8 encoding of a string, which is the one of its characters: `ofString s = encode
s.toList`. -/
def ofString (s : String) : Bytes := encode s.toList

/-- What stands at the start of a non-empty string of bytes. Of a fault and of a character that is
cut off, only the second can be mended by more bytes. -/
inductive Piece where
  /-- A whole character and the number of its bytes. -/
  | char (c : Char) (size : Nat)
  /-- Bytes that begin no character, however the text goes on. -/
  | fault (size : Nat)
  /-- The start of a character at the end of the text. -/
  | cutOff
  deriving Repr, DecidableEq

/-- Whether a byte has the form `10xxxxxx`, that of every byte of a character but its first one. -/
def isContinuation (b : UInt8) : Bool := b &&& 0xC0 == 0x80

/-- The six payload bits of a continuation byte, `x` in `10xxxxxx`, as a number below 64. -/
def payload (b : UInt8) : Nat := b.toNat % 64

/-- Whether `second` may follow `first` in a sequence of three bytes. Behind `E0` small values would
be a longer spelling than needed, and behind `ED` large ones would be surrogates. -/
def isSecondOfThree (first second : UInt8) : Bool :=
  if first == 0xE0 then 0xA0 ≤ second && second ≤ 0xBF
  else if first == 0xED then 0x80 ≤ second && second ≤ 0x9F
  else isContinuation second

/-- Whether `second` may follow `first` in a sequence of four bytes. Behind `F0` small values would
be a longer spelling than needed, and behind `F4` large ones would be beyond the last character. -/
def isSecondOfFour (first second : UInt8) : Bool :=
  if first == 0xF0 then 0x90 ≤ second && second ≤ 0xBF
  else if first == 0xF4 then 0x80 ≤ second && second ≤ 0x8F
  else isContinuation second

/-- Read the start of the bytes `first :: rest`. The first byte says how many bytes the character
has; `80` to `C1` and those from `F5` on begin none. -/
def piece (first : UInt8) (rest : Bytes) : Piece :=
  if first < 0x80 then .char (Char.ofNat first.toNat) 1
  -- the first bytes `C0` and `C1` would spell an ASCII character in two bytes
  else if 0xC2 ≤ first && first ≤ 0xDF then
    match rest with
    | [] => .cutOff
    | b :: _ =>
      if isContinuation b then .char (Char.ofNat (first.toNat % 32 * 64 + payload b)) 2
      else .fault 1
  else if 0xE0 ≤ first && first ≤ 0xEF then
    match rest with
    | [] => .cutOff
    | [b] => if isSecondOfThree first b then .cutOff else .fault 1
    -- a wrong byte is no part of the fault: it may begin the next character
    | b :: c :: _ =>
      if !isSecondOfThree first b then .fault 1
      else if !isContinuation c then .fault 2
      else .char (Char.ofNat ((first.toNat % 16 * 64 + payload b) * 64 + payload c)) 3
  else if 0xF0 ≤ first && first ≤ 0xF4 then
    match rest with
    | [] => .cutOff
    | [b] => if isSecondOfFour first b then .cutOff else .fault 1
    | [b, c] =>
      if !isSecondOfFour first b then .fault 1
      else if !isContinuation c then .fault 2
      else .cutOff
    | b :: c :: d :: _ =>
      if !isSecondOfFour first b then .fault 1
      else if !isContinuation c then .fault 2
      else if !isContinuation d then .fault 3
      else
        let high := (first.toNat % 8 * 64 + payload b) * 64 + payload c
        .char (Char.ofNat (high * 64 + payload d)) 4
  else .fault 1

/-- Why bytes are no UTF-8. The offset of an error counts from the start of the whole text. -/
inductive Error where
  /-- Bytes that begin no character, at an offset. -/
  | fault (size offset : Nat)
  /-- A character cut off by the end, at an offset. -/
  | cutOff (offset : Nat)
  deriving Repr, DecidableEq

/-- The wording of an error, with the number of its bytes, if it has one, and its offset. -/
def Error.message : Error → String
  | .fault size offset => s!"invalid utf-8 sequence of {size} bytes from index {offset}"
  | .cutOff offset => s!"incomplete utf-8 byte sequence from index {offset}"

/-- Read UTF-8 that starts at an offset of the whole; `skip` bytes belong to the last character that
was read and are passed over. -/
def decodeFrom (offset skip : Nat) : Bytes → Except Error (List Char)
  | [] => .ok []
  | first :: rest =>
    match skip with
    -- the recursion goes byte by byte, so that it is structural
    | skip + 1 => decodeFrom (offset + 1) skip rest
    | 0 =>
      match piece first rest with
      | .char c size => (decodeFrom (offset + 1) (size - 1) rest).map (c :: ·)
      | .fault size => .error (.fault size offset)
      | .cutOff => .error (.cutOff offset)

/-- Read UTF-8: all characters of a text, or the first fault in it. See `decode_encode` and
`encode_of_decode` for the two directions. -/
def decode (bytes : Bytes) : Except Error (List Char) := decodeFrom 0 0 bytes

/-- Read UTF-8 as a string; `none` for bytes that are no UTF-8, whatever is wrong with them. -/
def toString? (bytes : Bytes) : Option String :=
  match decode bytes with
  | .ok s => some (String.ofList s)
  | .error _ => none

/-- Whether a position in the encoding of a text stands between two characters, or at an end: the
byte there, if there is one, continues no character. -/
def isBoundary (bytes : Array UInt8) (pos : Nat) : Bool :=
  if h : pos < bytes.size then pos == 0 || !isContinuation bytes[pos] else pos == bytes.size

/-- The part of a text between two positions in its encoding; `none` if `stop` stands before
`start`, or if one of them is beyond the end or inside a character. -/
def slice? (bytes : Array UInt8) (start stop : Nat) : Option (List Char) :=
  if start ≤ stop ∧ isBoundary bytes start ∧ isBoundary bytes stop then
    (decode (bytes.extract start stop).toList).toOption
  else none

/-- The character that stands for bytes that are no text, `U+FFFD`. -/
def replacement : Char := Char.ofNat 0xFFFD

/-- Read UTF-8, with `replacement` for every fault; `skip` bytes are already accounted for. A fault
of several bytes is replaced by one character, and so is a character that is cut off. -/
def decodeLossyFrom (skip : Nat) : Bytes → List Char
  | [] => []
  | first :: rest =>
    match skip with
    | skip + 1 => decodeLossyFrom skip rest
    | 0 =>
      match piece first rest with
      | .char c size => c :: decodeLossyFrom (size - 1) rest
      | .fault size => replacement :: decodeLossyFrom (size - 1) rest
      | .cutOff => [replacement]

/-- Read UTF-8 with `replacement` for every fault, so that any bytes are read as some string. -/
def decodeLossy (bytes : Bytes) : String := String.ofList (decodeLossyFrom 0 bytes)

end WireKeeper.Utf8
