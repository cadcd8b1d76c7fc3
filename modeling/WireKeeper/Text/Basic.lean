/-! # Blanks, lines and numerals

Text as lists of characters: what is blank, where it is split, and the numerals in it.

* `isBlank` is the Unicode property `White_Space`; `trim` removes blanks at both ends, and `words`
  splits at runs of blanks and keeps no empty word;
* `lines` splits at line feeds; a carriage return before a line feed belongs to the line end, and a
  final line feed starts no further line;
* `cutFirst` and `cutLast` split once, at the first or the last occurrence of a character;
* `joinWith` puts a separator between the pieces;
* `decimal? bound` reads an unsigned decimal numeral below `bound`: an optional plus sign and then
  ASCII digits only, at least one; leading zeros do not matter. `digitValue?` reads one digit of a
  radix up to sixteen. -/

namespace WireKeeper.Text

/-! ## Blanks -/

/-- **Blank** characters: the members of Unicode's `White_Space` property, with the line ends, the
no-break spaces and the ideographic space. -/
def isBlank (c : Char) : Bool :=
  let n := c.toNat
  (9 ≤ n && n ≤ 13) || n == 0x20 || n == 0x85 || n == 0xA0 || n == 0x1680 ||
    (0x2000 ≤ n && n ≤ 0x200A) || n == 0x2028 || n == 0x2029 || n == 0x202F || n == 0x205F ||
    n == 0x3000

/-- Remove the blanks at the start: `trimStart s` is the longest suffix of `s` that does not begin
with a blank. -/
def trimStart (s : List Char) : List Char := s.dropWhile isBlank

/-- Remove the blanks at the end: `trimEnd s` is the longest prefix of `s` that does not end with a
blank. -/
def trimEnd (s : List Char) : List Char := (s.reverse.dropWhile isBlank).reverse

/-- Remove the blanks at both ends; blanks between other characters stay. A text of blanks only
becomes empty. -/
def trim (s : List Char) : List Char := trimEnd (trimStart s)

/-- The **words** of a text: the maximal runs of non-blank characters, in order. Blanks in a row
give no empty word between them. -/
def words (s : List Char) : List (List Char) := (s.splitOnP isBlank).filter (!·.isEmpty)

/-- There is nothing to remove at the start of the empty text: `trimStart [] = []`. -/
@[simp] theorem trimStart_nil : trimStart [] = [] := rfl

/-- There is nothing to remove at the end of the empty text: `trimEnd [] = []`. -/
@[simp] theorem trimEnd_nil : trimEnd [] = [] := rfl

/-- There is nothing to remove at either end of the empty text: `trim [] = []`. -/
@[simp] theorem trim_nil : trim [] = [] := rfl

/-- The empty text has no words: `words [] = []`. -/
@[simp] theorem words_nil : words [] = [] := rfl

/-! ## Lines and cuts -/

/-- Drop one carriage return at the end, as far as there is one; any further one is part of the
line. -/
def dropReturn (s : List Char) : List Char :=
  if s.getLast? = some '\r' then s.dropLast else s

/-- The **lines** of a text, without their ends. What stands behind the last line feed is a line
only if it is not empty, and its carriage return, which no line feed follows, stays. -/
def lines (s : List Char) : List (List Char) :=
  let pieces := s.splitOn '\n'
  pieces.dropLast.map dropReturn ++ (pieces.getLast?.toList.filter (!·.isEmpty))

/-- Split at the first `c`, which belongs to neither part: `some (l, r)` for `l ++ c :: r` with no
`c` in `l`, and `none` where there is no `c`. -/
def cutFirst (c : Char) : List Char → Option (List Char × List Char)
  | [] => none
  | x :: xs => if x = c then some ([], xs) else (cutFirst c xs).map fun p => (x :: p.1, p.2)

/-- Split at the last `c`, which belongs to neither part: `some (l, r)` for `l ++ c :: r` with no
`c` in `r`, and `none` where there is no `c`. -/
def cutLast (c : Char) : List Char → Option (List Char × List Char)
  | [] => none
  | x :: xs =>
    match cutLast c xs with
    | some p => some (x :: p.1, p.2)
    | none => if x = c then some ([], xs) else none

/-- Drop a literal start: `some` rest for a text that begins with `start`, and `none` for
any other. -/
def dropStart? (start s : List Char) : Option (List Char) :=
  if start.isPrefixOf s then some (s.drop start.length) else none

/-- Whether a text begins with another: `startsWith start s` if `s = start ++ rest` for
some `rest`. -/
def startsWith (start s : List Char) : Bool := start.isPrefixOf s

/-- The pieces with `sep` between them; in front of the first piece and behind the last one there is
none. -/
def joinWith (sep : List Char) : List (List Char) → List Char
  | [] => []
  | [p] => p
  | p :: q :: ps => p ++ sep ++ joinWith sep (q :: ps)

/-- The empty text has no lines: `lines [] = []`, where `"\n"` has one, which is empty. -/
@[simp] theorem lines_nil : lines [] = [] := rfl

/-- No pieces make up the empty text, whatever the separator: `joinWith sep [] = []`. -/
@[simp] theorem joinWith_nil (sep : List Char) : joinWith sep [] = [] := rfl

/-- A single piece stays as it is, for there is nothing to put a separator between. -/
@[simp] theorem joinWith_singleton (sep p : List Char) : joinWith sep [p] = p := rfl

/-- A cut loses nothing but the separator: from `cutFirst c s = some (l, r)` comes `s = l ++ c ::
r`. -/
theorem eq_of_cutFirst {c : Char} {s l r : List Char} (h : cutFirst c s = some (l, r)) :
    s = l ++ c :: r := by
  induction s generalizing l r with
  | nil => simp [cutFirst] at h
  | cons x xs ih =>
    by_cases hx : x = c
    · simp [cutFirst, hx] at h
      simp [hx, h.1.symm, h.2]
    · simp only [cutFirst, hx, if_false, Option.map_eq_some_iff] at h
      obtain ⟨p, hp, heq⟩ := h
      cases heq
      simp [ih hp]

/-! ## Numerals -/

/-- The value of a digit, `0` to `9` and then `a` to `f` in either case, if it is below the radix.
The radix is at most sixteen. -/
def digitValue? (radix : Nat) (c : Char) : Option Nat :=
  let n := c.toNat
  let v :=
    -- the ten digits, then small and capital letters
    if 48 ≤ n ∧ n ≤ 57 then some (n - 48)
    else if 97 ≤ n ∧ n ≤ 102 then some (n - 87)
    else if 65 ≤ n ∧ n ≤ 70 then some (n - 55)
    else none
  v.filter (· < radix)

/-- The value of a run of digits, most significant first: `v * radix + d` for each digit `d` from
the left, beginning at zero. -/
def valueOfDigits (radix : Nat) (digits : List Nat) : Nat :=
  digits.foldl (fun v d => v * radix + d) 0

/-- Read a non-empty run of digits and nothing else: `none` for the empty text and for one with a
character that is no digit of the radix. -/
def digits? (radix : Nat) (s : List Char) : Option Nat :=
  if s.isEmpty then none else (s.mapM (digitValue? radix)).map (valueOfDigits radix)

/-- Read an unsigned decimal numeral; `none` if the number is not below `bound`. One plus sign may
stand in front of the digits, and zeros there do not matter. -/
def decimal? (bound : Nat) (s : List Char) : Option Nat :=
  let body := match s with
    | '+' :: rest => rest
    -- a minus sign is no part of a numeral, so it fails as a digit
    | _ => s
  (digits? 10 body).filter (· < bound)

/-- The decimal numeral of a number, without a sign or zeros in front: `decimal 0 = ['0']`. -/
def decimal (n : Nat) : List Char := Nat.toDigits 10 n

/-- The empty text is no numeral, whatever the bound: `decimal? bound [] = none`. -/
@[simp] theorem decimal?_nil (bound : Nat) : decimal? bound [] = none := rfl

end WireKeeper.Text
