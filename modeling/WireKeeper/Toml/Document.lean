import WireKeeper.Toml.Value

/-! # TOML documents

A document is a list of statements, each on a line of its own: a key with its value, or the header
of a table. The keys after a header belong to its table; those before the first header to the
document itself.

* `Document.statements` reads the statements;
* `Document.sections` puts the keys to their headers;
* `Document.read` reads a document and gives its entries. -/

namespace WireKeeper.Toml

/-- A statement of a document, which takes up a line, or several if its value does. -/
inductive Statement where
  | pair (p : Pair)
  /-- The header of a table. -/
  | header (path : List String)
  /-- The header of one more table of an array. -/
  | arrayHeader (path : List String)
  deriving Repr

/-- A header, if there is one, and the keys after it, in the order in which they stand. -/
structure Section where
  header : Option Statement := none
  pairs : List Pair := []

namespace Document

/-- Read a statement. Two brackets make a header of an array only if nothing stands between them; a
blank there is an error. -/
def statement : Reader Statement := fun s =>
  match s with
  | '[' :: '[' :: rest => do
    let (path, s) ← Key.path rest
    let s ← Reader.expect? ']' (← Reader.expect? ']' s)
    some (.arrayHeader path, s)
  | '[' :: rest => do
    let (path, s) ← Key.path rest
    let s ← Reader.expect? ']' s
    some (.header path, s)
  | _ => (Value.pair Value.read s).map fun (p, s) => (.pair p, s)

/-- Whether a line may end here: at the end of the text, or at a line feed. A comment may stand
before its end. -/
def atLineEnd (s : List Char) : Bool :=
  match s.dropWhile isSpace with
  | [] => true
  | c :: _ => c == '\n' || c == '#'

/-- Read all statements, each on lines of its own; `none` if one of them cannot be read or something
else stands behind it on its line. -/
def statements (s : List Char) : Option (List Statement) :=
  match skipGaps false s with
  | [] => some []
  | text =>
    match statement text with
    | none => none
    | some (st, rest) =>
      -- a statement has at least one character, so this only serves the recursion
      if _h : rest.length < s.length then
        if atLineEnd rest then (statements rest).map (st :: ·) else none
      else none
termination_by s.length

/-- Put the keys to their headers: first the keys before any header, then the sections. Two headers
of one name stay two sections. -/
def sections : List Statement → List Pair × List Section
  | [] => ([], [])
  | st :: rest =>
    let (pairs, later) := sections rest
    match st with
    | .pair p => (p :: pairs, later)
    | header => ([], ⟨some header, pairs⟩ :: later)

/-- Put a section into the document: its keys go to the table that its header names, or to a new
table of an array, or to the document itself. Fails if the header or one of the keys was there
before. -/
def place (root : Entries) (s : Section) : Option Entries :=
  let within := fun (path : List String) (change : Entries → String → Option Entries) => do
    let key ← path.getLast?
    Entries.update false (fun _ parent => change parent key) path.dropLast .header root
  match s.header with
  | some (.header path) => within path fun parent key => do
    let inner ← Entries.open? parent key
    let inner ← Entries.fill inner s.pairs
    some (Entries.close parent key inner)
  | some (.arrayHeader path) => within path fun parent key => do
    let inner ← Entries.fill [] s.pairs
    Entries.push? parent key inner
  -- only the first section has no header
  | _ => Entries.fill root s.pairs

/-- Put carriage returns before line feeds away. Any other carriage return stays and is refused
where it is read. -/
def joinLineEnds : List Char → List Char
  | [] => []
  | '\r' :: '\n' :: rest => '\n' :: joinLineEnds rest
  | c :: rest => c :: joinLineEnds rest

/-- Drop one byte order mark at the start; another one behind it belongs to the text. -/
def dropMark : List Char → List Char
  | c :: rest => if c.toNat = 0xFEFF then rest else c :: rest
  | [] => []

/-- Read a document and give the keys and values at its top, or `none` for a text that is
no TOML. -/
def read (s : List Char) : Option Entries := do
  let (pairs, later) := sections (← statements (joinLineEnds (dropMark s)))
  (⟨none, pairs⟩ :: later).foldlM place []

end Document

end WireKeeper.Toml
