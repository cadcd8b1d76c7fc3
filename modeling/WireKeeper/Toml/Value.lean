import WireKeeper.Toml.Literal
import WireKeeper.Toml.Quoted

/-! # TOML keys and values

A reader takes the text at hand and gives what it read and what is left.

* `Reader.separated` reads items with a separator between them;
* `Key.path` reads a dotted key, `Value.read` a value.

Arrays and inline tables may be nested less than eighty deep, and a dotted key has less than eighty
parts; so a value is read by recursion on the depth that is left. -/

namespace WireKeeper.Toml

/-- A reader: what it read and what is left of the text, or `none`. A reader leaves the blanks
behind what it read. -/
abbrev Reader (α : Type) := List Char → Option (α × List Char)

/-- Nesting and dotted keys stay below this bound: a value is at most 79 deep, and a key has at most
79 parts. -/
def depthBound : Nat := 80

namespace Reader

/-- Read one item or more, with a separator between each two. A separator that no item follows is
left, so that its reader can allow it or not. -/
def separated {α : Type} (separator : Char) (item : Reader α) (s : List Char) :
    Option (List α × List Char) :=
  match item s with
  | none => none
  | some (a, rest) =>
    match rest with
    | [] => some ([a], rest)
    | c :: more =>
      if c = separator then
        if _h : more.length < s.length then
          match separated separator item more with
          | some (as, rest) => some (a :: as, rest)
          | none => some ([a], rest)
        else none
      else some ([a], rest)
termination_by s.length

/-- Drop one given character, or fail if another one or none is there. -/
def expect? (c : Char) : List Char → Option (List Char)
  | [] => none
  | x :: rest => if x = c then some rest else none

end Reader

/-- Skip gaps and comments. A character that may not stand in a comment is left, so that what comes
next fails there. -/
def skipGaps (inComment : Bool) : List Char → List Char
  | [] => []
  | c :: rest =>
    if inComment then
      if c = '\n' then skipGaps false rest
      else if isPlain c then skipGaps true rest
      else c :: rest
    else if isGap c then skipGaps false rest
    else if c = '#' then skipGaps true rest
    else c :: rest

namespace Key

/-- The characters of keys without quotes: letters and digits, all of them ASCII, underscores and
hyphens. -/
def isBare (c : Char) : Bool := c.isAlphanum || c == '_' || c == '-'

/-- Read one part of a key, with the spaces around it. Quotes may hold any text, also an empty one,
but only on one line. -/
def part (s : List Char) : Option (String × List Char) :=
  let finish := fun (text rest : List Char) =>
    some (String.ofList text, rest.dropWhile isSpace)
  match s.dropWhile isSpace with
  | '"' :: rest => (Quoted.basic rest).bind fun (text, rest) => finish text rest
  | '\'' :: rest => (Quoted.literal rest).bind fun (text, rest) => finish text rest
  | rest =>
    let text := rest.takeWhile isBare
    if text.isEmpty then none else finish text (rest.dropWhile isBare)

/-- Read a dotted key, as the list of its parts; one with too many of them is refused. -/
def path : Reader (List String) := fun s =>
  (Reader.separated '.' part s).filter fun (parts, _) => parts.length < depthBound

end Key

/-- A key with its path and its value: `(path, key, item)` for `path.key = item`. -/
abbrev Pair := List String × String × Item

namespace Value

/-- Read a dotted key and its value with a given reader of values; both stand on one line with the
equals sign. -/
def pair (value : Reader Item) : Reader Pair := fun s => do
  let (parts, s) ← Key.path s
  let s ← Reader.expect? '=' s
  let (item, s) ← value (s.dropWhile isSpace)
  let key ← parts.getLast?
  some ((parts.dropLast, key, item), s)

/-- Read an item of an array, with the gaps and comments around it, which may spread it
over lines. -/
def element (value : Reader Item) : Reader Item := fun s => do
  let (item, s) ← value (skipGaps false s)
  some (item, skipGaps false s)

/-- Read an array after its bracket; a comma may follow the last item, but not stand alone. -/
def array (value : Reader Item) : Reader Item := fun s => do
  let (items, s) := (Reader.separated ',' (element value) s).getD ([], s)
  let s := match s with
    | ',' :: rest => if items.isEmpty then s else rest
    | _ => s
  let s ← Reader.expect? ']' (skipGaps false s)
  some (.array items, s)

/-- Read an inline table after its brace; it stands on one line, and no comma may follow its last
pair. -/
def inlineTable (value : Reader Item) : Reader Item := fun s => do
  let entry : Reader Pair := fun s => do
    let (p, s) ← pair value s
    some (p, s.dropWhile isSpace)
  let (pairs, s) := (Reader.separated ',' entry s).getD ([], s)
  let s ← Reader.expect? '}' (s.dropWhile isSpace)
  some (.table .inline (← Entries.fill [] pairs), s)

/-- Read a scalar: a string if it begins with a quote, and else a literal. -/
def scalar : Reader Item := fun s =>
  match s with
  | '"' :: _ => (Quoted.read s).map fun (text, s) => (.string (String.ofList text), s)
  | '\'' :: _ => (Quoted.read s).map fun (text, s) => (.string (String.ofList text), s)
  | _ => Literal.read s

/-- Read a value that is nested at most `depth` deep; at depth zero a bracket or a brace begins
none. -/
def readWithin : (depth : Nat) → Reader Item
  | 0 => scalar
  | depth + 1 => fun s =>
    match s with
    | '[' :: rest => array (readWithin depth) rest
    | '{' :: rest => inlineTable (readWithin depth) rest
    | _ => scalar s

/-- Read a value, nested less than `depthBound` deep. -/
def read : Reader Item := readWithin (depthBound - 1)

end Value

end WireKeeper.Toml
