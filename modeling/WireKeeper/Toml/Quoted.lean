import WireKeeper.Text.Basic

/-! # Quoted TOML strings

Four ways to quote: **basic** strings with escapes and **literal** ones without, each on one line or
on several. Every reader here starts after the opening quotes and gives the text and what follows
the closing quotes.

In a string on several lines one or two quotes may stand anywhere, also directly before the closing
three; a line feed directly after the opening quotes does not count. -/

namespace WireKeeper.Toml

open Text (digitValue? valueOfDigits)

/-- Characters that may stand in comments and strings: all but the control characters, of which only
the tab is allowed. A line feed is none. -/
def isPlain (c : Char) : Bool := c == '\t' || (0x20 ≤ c.toNat && c.toNat ≠ 0x7F)

/-- Spaces and tabs, which may stand around keys and values on their line. -/
def isSpace (c : Char) : Bool := c == ' ' || c == '\t'

/-- Spaces, tabs and line feeds, which may stand between the items of an array. -/
def isGap (c : Char) : Bool := isSpace c || c == '\n'

namespace Quoted

/-- The character that a letter means after a backslash; `none` for letters that mean none. -/
def escape? : Char → Option Char
  | 'b' => some '\x08'
  | 't' => some '\t'
  | 'n' => some '\n'
  | 'f' => some '\x0c'
  | 'r' => some '\r'
  | '"' => some '"'
  | '\\' => some '\\'
  | _ => none

/-- The character with a hexadecimal code; `none` for a code of no character, such as a
surrogate. -/
def scalar? (code : List Char) : Option Char := do
  let n := valueOfDigits 16 (← code.mapM (digitValue? 16))
  if n.isValidChar then some (Char.ofNat n) else none

/-- Read an escape after its backslash: a letter, or `u` with four or `U` with eight hexadecimal
digits. -/
def readEscape : List Char → Option (Char × List Char)
  | 'u' :: rest => if rest.length < 4 then none else
    (scalar? (rest.take 4)).map fun c => (c, rest.drop 4)
  | 'U' :: rest => if rest.length < 8 then none else
    (scalar? (rest.take 8)).map fun c => (c, rest.drop 8)
  | c :: rest => (escape? c).map fun c => (c, rest)
  | [] => none

/-- An escape takes at least one character, so that reading goes on with a shorter text. -/
theorem length_of_readEscape {s rest : List Char} {c : Char} (h : readEscape s = some (c, rest)) :
    rest.length < s.length := by
  unfold readEscape at h
  split at h <;> try split at h
  all_goals simp_all only [reduceCtorEq, Option.map_eq_some_iff, Prod.mk.injEq]
  all_goals
    obtain ⟨_, _, _, rfl⟩ := h
    simp only [List.length_cons, List.length_drop]
    omega

/-- Put a character in front of what was read, if anything was read. -/
def push (c : Char) (read : Option (List Char × List Char)) : Option (List Char × List Char) :=
  read.map fun (text, rest) => (c :: text, rest)

/-- Read a basic string on one line, up to its closing quote; `none` if there is none or a character
may not stand there. -/
def basic (s : List Char) : Option (List Char × List Char) :=
  match s with
  | [] => none
  | '"' :: rest => some ([], rest)
  | '\\' :: rest =>
    match _h : readEscape rest with
    | some (c, rest) => push c (basic rest)
    | none => none
  | c :: rest => if isPlain c then push c (basic rest) else none
termination_by s.length
decreasing_by
  · have := length_of_readEscape _h
    simp only [List.length_cons]
    omega
  · simp

/-- Read a literal string on one line. A backslash in it stands for itself. -/
def literal : List Char → Option (List Char × List Char)
  | [] => none
  | '\'' :: rest => some ([], rest)
  | c :: rest => if isPlain c then push c (literal rest) else none

/-- Read the end of a string on several lines: three quotes, and up to two more that stand before
them and belong to the text. -/
def closing (quote : Char) (s : List Char) : Option (List Char × List Char) :=
  let quotes := (s.takeWhile (· == quote)).length
  if quotes < 3 then none
  else some (List.replicate (min (quotes - 3) 2) quote, s.drop (min quotes 5))

/-- Skip a line end after a backslash, with the spaces before it and all gaps after it, so that a
long line can be written on several. -/
def skipFold (s : List Char) : Option (List Char) :=
  match s.dropWhile isSpace with
  | '\n' :: rest => some (rest.dropWhile isGap)
  | _ => none

/-- A fold takes at least one character, so that reading goes on with a shorter text. -/
theorem length_of_skipFold {s rest : List Char} (h : skipFold s = some rest) :
    rest.length < s.length := by
  unfold skipFold at h
  split at h
  · rename_i tail heq
    obtain rfl := Option.some.inj h
    have h₁ : (s.dropWhile isSpace).length ≤ s.length := (List.dropWhile_suffix _).length_le
    have h₂ : (tail.dropWhile isGap).length ≤ tail.length := (List.dropWhile_suffix _).length_le
    rw [heq, List.length_cons] at h₁
    omega
  · simp at h

/-- Read a basic string on several lines, up to its closing quotes; line feeds belong to the text
unless they are folded. -/
def basicLines (s : List Char) : Option (List Char × List Char) :=
  match closing '"' s with
  | some done => some done
  | none =>
    match s with
    | [] => none
    | '\\' :: rest =>
      match _h : skipFold rest with
      | some rest => basicLines rest
      | none =>
        match _h : readEscape rest with
        | some (c, rest) => push c (basicLines rest)
        | none => none
    | c :: rest => if isPlain c || c = '\n' then push c (basicLines rest) else none
termination_by s.length
decreasing_by
  · have := length_of_skipFold _h
    simp only [List.length_cons]
    omega
  · have := length_of_readEscape _h
    simp only [List.length_cons]
    omega
  · simp

/-- Read a literal string on several lines, up to its closing quotes. A backslash in it folds
nothing. -/
def literalLines (s : List Char) : Option (List Char × List Char) :=
  match closing '\'' s with
  | some done => some done
  | none =>
    match s with
    | [] => none
    | c :: rest => if isPlain c || c = '\n' then push c (literalLines rest) else none

/-- Drop one line feed at the start, the one directly after the opening quotes. -/
def dropFirstBreak : List Char → List Char
  | '\n' :: rest => rest
  | s => s

/-- Read a string with its quotes, of which three in a row open a string on several lines. -/
def read : List Char → Option (List Char × List Char)
  | '"' :: '"' :: '"' :: rest => basicLines (dropFirstBreak rest)
  | '"' :: rest => basic rest
  | '\'' :: '\'' :: '\'' :: rest => literalLines (dropFirstBreak rest)
  | '\'' :: rest => literal rest
  | _ => none

end Quoted

end WireKeeper.Toml
