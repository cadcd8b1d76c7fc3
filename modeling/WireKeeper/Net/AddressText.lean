import WireKeeper.Net.Address
import WireKeeper.Text.Basic

/-! # Addresses as text

Reading and writing addresses.

* A 32-bit address is four decimal octets joined by full stops.
* A 128-bit address is eight hexadecimal groups joined by colons; one `::` stands for groups of
  zero, and the last two groups may be written as four octets.

A `Dialect` says how strictly the reader takes two of the rules. The writer puts `::` for the first
of the longest runs of at least two zero groups, and writes the octets of an address whose groups
before them are five zeros and `ffff`.

A reader takes the characters at hand and gives what it read and what is left. -/

namespace WireKeeper

open Text (digitValue? valueOfDigits joinWith)

/-- How strictly addresses are read; there are two ways, `strict` and `lenient`. -/
structure Dialect where
  /-- Octets may begin with zeros. -/
  leadingZeros : Bool
  /-- `::` may stand for no group at all. -/
  emptyGap : Bool

namespace Dialect

/-- Addresses that stand alone: no octet begins with a superfluous zero, `::` stands for at least
one group. -/
def strict : Dialect := ⟨false, false⟩

/-- The address part of a net: both rules are relaxed, so `010.9.8.1` is read there and nowhere
else. -/
def lenient : Dialect := ⟨true, true⟩

/-- Read one given character, or fail if another one or none is there. -/
def expect (c : Char) : List Char → Option (List Char)
  | [] => none
  | x :: xs => if x = c then some xs else none

/-- Read a run of one to `size` digits with a value below `bound`. All digits in a row count, so a
longer run is no number. -/
def readNumber (radix size bound : Nat) (s : List Char) : Option (Nat × List Char) :=
  let isDigit := fun c => (digitValue? radix c).isSome
  let digits := (s.takeWhile isDigit).filterMap (digitValue? radix)
  let value := valueOfDigits radix digits
  if digits.isEmpty || size < digits.length || bound ≤ value then none
  else some (value, s.dropWhile isDigit)

/-- Read a decimal octet, of at most three digits. Unless the dialect allows it, a zero stands in
front of another digit in none. -/
def readOctet (d : Dialect) (s : List Char) : Option (Nat × List Char) := do
  let (n, rest) ← readNumber 10 3 256 s
  if !d.leadingZeros && s.head? = some '0' && rest.length + 1 < s.length then none
  else some (n, rest)

/-- Read four octets, with full stops between them, as one number. -/
def readOctets (d : Dialect) (s : List Char) : Option (Nat × List Char) := do
  let (a, s) ← d.readOctet s
  let (b, s) ← d.readOctet (← expect '.' s)
  let (c, s) ← d.readOctet (← expect '.' s)
  let (e, s) ← d.readOctet (← expect '.' s)
  some (((a * 256 + b) * 256 + c) * 256 + e, s)

/-- Read at most `limit` groups; every group but the first follows a colon. Also says whether the
last two were written as octets. It never fails: what is no group is left. -/
def readGroups (d : Dialect) : (limit : Nat) → (first : Bool) → List Char →
    List Nat × Bool × List Char
  | 0, _, s => ([], false, s)
  | limit + 1, first, s =>
    match if first then some s else expect ':' s with
    | none => ([], false, s)
    | some body =>
      -- octets take up two groups, so there must be room for another one
      match if limit = 0 then none else d.readOctets body with
      | some (n, rest) => ([n / 65536, n % 65536], true, rest)
      | none =>
        match readNumber 16 4 65536 body with
        | none => ([], false, s)
        | some (g, rest) =>
          let (gs, octets, rest) := d.readGroups limit false rest
          (g :: gs, octets, rest)

/-- The number whose sixteen-bit groups are given, the most significant first. -/
def ofGroups (groups : List Nat) : Nat := groups.foldl (fun v g => v * 65536 + g) 0

/-- Read a 128-bit address as a number: eight groups, or fewer with one `::` that stands for all
that are missing. -/
def readWide (d : Dialect) (s : List Char) : Option (Nat × List Char) := do
  let (front, octets, s) := d.readGroups 8 true s
  if front.length = 8 then some (ofGroups front, s)
  else if octets then none
  else
    let s ← expect ':' (← expect ':' s)
    -- at least one group is left to the gap, unless it may be empty
    let room := 8 - front.length - if d.emptyGap then 0 else 1
    let (back, _, s) := d.readGroups room true s
    some (ofGroups (front ++ List.replicate (8 - front.length - back.length) 0 ++ back), s)

end Dialect

namespace Address

/-- Read an address that takes the whole text, in the strict way. -/
def read? (s : List Char) : Option Address :=
  let result := match Dialect.strict.readOctets s with
    | some (n, rest) => some (ofNat .v4 n, rest)
    | none =>
      match Dialect.strict.readWide s with
      | some (n, rest) => some (ofNat .v6 n, rest)
      | none => none
  match result with
  | some (a, []) => some a
  | _ => none

/-- Read an address, with blanks around it; the error shows the text without them. -/
def parse (s : String) : Except AddressError Address :=
  let body := Text.trim s.toList
  match read? body with
  | some a => .ok a
  | none => .error (.invalidAddress (String.ofList body))

/-- Four octets joined by full stops, none with a zero in front of another digit. -/
def writeOctets (n : Nat) : List Char :=
  joinWith ['.'] [Text.decimal (n / twoPow 24 % 256), Text.decimal (n / twoPow 16 % 256),
    Text.decimal (n / twoPow 8 % 256), Text.decimal (n % 256)]

/-- The eight sixteen-bit groups of a 128-bit number, the most significant first. -/
def groups (n : Nat) : List Nat :=
  (List.range 8).map fun i => n / twoPow (16 * (7 - i)) % 65536

/-- Where the first of the longest runs of zeros begins, and its length, which is zero if there are
none. -/
def longestZeros : List Nat → Nat × Nat
  | [] => (0, 0)
  | g :: gs =>
    let here := ((g :: gs).takeWhile (· == 0)).length
    let later := longestZeros gs
    -- of two equally long runs the earlier one counts
    if later.2 ≤ here then (0, here) else (later.1 + 1, later.2)

/-- Groups in hexadecimal, joined by colons; no group has zeros in front. -/
def writeGroups (gs : List Nat) : List Char := joinWith [':'] (gs.map (Nat.toDigits 16))

/-- A 128-bit address as text. A single zero group is written, two or more in a row become `::`. -/
def writeWide (n : Nat) : List Char :=
  if n / twoPow 32 = 0xFFFF then [':', ':', 'f', 'f', 'f', 'f', ':'] ++ writeOctets n
  else
    let gs := groups n
    let (start, size) := longestZeros gs
    if 1 < size then
      writeGroups (gs.take start) ++ [':', ':'] ++ writeGroups (gs.drop (start + size))
    else writeGroups gs

/-- An address as text, from which `parse` reads the same address. -/
def write (a : Address) : List Char :=
  match a.family with
  | .v4 => writeOctets a.value
  | .v6 => writeWide a.value

/-- The text of an address is the one that is written for it. -/
instance : ToString Address := ⟨fun a => String.ofList a.write⟩

/-- Read a list of addresses; the first fault counts, and then nothing is read. -/
def parseAll (items : List String) : Except AddressError (List Address) := items.mapM parse

/-- Addresses as text, with a separator between them; none of them is the empty text. -/
def formatAll (items : List Address) (sep : String) : String :=
  String.ofList (joinWith sep.toList (items.map write))

end Address

end WireKeeper
