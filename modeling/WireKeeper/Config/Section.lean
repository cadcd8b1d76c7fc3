import WireKeeper.Key
import WireKeeper.Net.Subnet
import WireKeeper.Text.Glyph

/-! # Sections of a configuration file

A configuration file is a list of **sections**: a title in brackets, the comment line that stood
before it, and the **entries** `key = value` after it.

* `Line.read` tells what one line is;
* `Section.readAll` reads a file, `Section.writeAll` writes one;
* `Section.get?`, `Section.all`: the entries of a key, whose case does not matter. -/

namespace WireKeeper.Config

open Text (trim trimStart)

/-- Why a text is no configuration. Lines are counted from one, blank ones and comments included. -/
inductive Error where
  /-- A line that is neither blank, comment, title nor entry. -/
  | badLine (number : Nat) (line : List Char)
  /-- An entry before the first title. -/
  | entryOutside (number : Nat)
  /-- No section with a title. -/
  | missingSection (title : String)
  /-- A section without a key it must have. -/
  | missingKey (title key : String)
  /-- A value that is no number below 65536. -/
  | notPort (key : String) (value : List Char)
  /-- An endpoint without a colon. -/
  | notEndpoint (value : List Char)
  /-- A value that is no key. -/
  | badKey (reason : KeyError)
  /-- A value that is no address or net. -/
  | badAddress (reason : AddressError)
  deriving DecidableEq, Repr

/-- The wording of an error. Texts that were found in the file are quoted, so that every character
in them can be seen. -/
def Error.message : Error → String
  | .badLine number line =>
    s!"line {number}: expected key = value, got {String.ofList (Text.quote line)}"
  | .entryOutside number => s!"line {number}: key outside of a section"
  | .missingSection title => s!"missing section [{title}]"
  | .missingKey title key => s!"[{title}] missing key {key}"
  | .notPort key value =>
    s!"invalid {key}: {String.ofList (Text.quote value)} is not a 16-bit unsigned integer"
  | .notEndpoint value => s!"invalid Endpoint: {String.ofList (Text.quote value)} is not host:port"
  | .badKey reason => reason.message
  | .badAddress reason => reason.message

/-- An entry: a key and its value, both without blanks at their ends. -/
abbrev Entry := List Char × List Char

/-- A section of a configuration file. Entries of one key may be there several times, and keep their
order. -/
structure Section where
  title : List Char
  /-- The comment line before the title. -/
  comment : Option (List Char)
  entries : List Entry
  deriving DecidableEq, Repr

/-- What one line of a configuration file is; a line that is none of the first four makes a file
unreadable. -/
inductive Line where
  | blank
  | comment (text : List Char)
  | heading (text : List Char)
  | entry (key value : List Char)
  | other (text : List Char)
  deriving DecidableEq, Repr

namespace Line

/-- The text of a comment: the signs and spaces at its start do not count, nor the blanks at its
end. -/
def commentText (s : List Char) : List Char :=
  trim (s.dropWhile fun c => c == '#' || c == ' ')

/-- The text between brackets that enclose a whole line; `none` unless the first and the last
character are a pair of them. -/
def bracketed? : List Char → Option (List Char)
  | '[' :: rest => if rest.getLast? = some ']' then some rest.dropLast else none
  | _ => none

/-- Read a line that is not blank and has no blank at either end. A line in brackets is a title even
if there is an equals sign in it, and the first equals sign ends a key. -/
def readTrimmed (s : List Char) : Line :=
  match s with
  | '#' :: rest => .comment (commentText rest)
  | ';' :: rest => .comment (commentText rest)
  | _ =>
    -- a title comes first: `[a=b]` is no entry
    match bracketed? s with
    | some title => .heading (trim title)
    | none =>
      match Text.cutFirst '=' s with
      | some (key, value) => .entry (trim key) (trim value)
      | none => .other s

/-- Read a line: the blanks around it do not count, and nothing but blanks is a blank line. -/
def read (raw : List Char) : Line :=
  match trim raw with
  | [] => .blank
  | c :: cs => readTrimmed (c :: cs)

end Line

namespace Section

/-- Read the lines from number `number` on: the entries that belong to the section at hand, if there
is one, and the sections after it. `comment` is the comment line that no title or entry has followed
yet; of several in a row the last one counts, and blank lines do not matter. -/
def readFrom (number : Nat) (inside : Bool) (comment : Option (List Char)) :
    List (List Char) → Except Error (List Entry × List Section)
  | [] => .ok ([], [])
  | raw :: rest =>
    match Line.read raw with
    | .blank => readFrom (number + 1) inside comment rest
    | .comment text => readFrom (number + 1) inside (some text) rest
    -- a title takes the comment in front of it, and an entry lets it go
    | .heading title =>
      match readFrom (number + 1) true none rest with
      | .ok (entries, later) => .ok ([], ⟨title, comment, entries⟩ :: later)
      | .error e => .error e
    | .entry key value =>
      if inside then
        match readFrom (number + 1) inside none rest with
        | .ok (entries, later) => .ok ((key, value) :: entries, later)
        | .error e => .error e
      else .error (.entryOutside number)
    | .other text => .error (.badLine number text)

/-- Read the sections of a file, line by line from number one. -/
def readAll (s : List Char) : Except Error (List Section) :=
  (readFrom 1 false none (Text.lines s)).map Prod.snd

/-- Whether two keys are the same but for the case of ASCII letters. -/
def sameKey (a b : List Char) : Bool := a.map Char.toLower == b.map Char.toLower

/-- All values of a key, in the order of the entries: none if the section does not have the key. -/
def all (s : Section) (key : String) : List (List Char) :=
  (s.entries.filter fun e => sameKey e.1 key.toList).map Prod.snd

/-- The last value of a key, which is the one that counts where a key may have only one. -/
def get? (s : Section) (key : String) : Option (List Char) := (s.all key).getLast?

/-- The last value of a key that must be there; the error says in which section it is missing. -/
def require (s : Section) (title key : String) : Except Error (List Char) :=
  match s.get? key with
  | some value => .ok value
  | none => .error (.missingKey title key)

/-- The sections with a title, in order. The case of a title matters, other than that of a key. -/
def titled (sections : List Section) (title : String) : List Section :=
  sections.filter fun s => s.title = title.toList

/-- The first section with a title; further ones with the same title do not count here. -/
def first (sections : List Section) (title : String) : Except Error Section :=
  match (titled sections title).head? with
  | some s => .ok s
  | none => .error (.missingSection title)

/-! ## Values -/

/-- The pieces of a list: separated by commas, without blanks around them, none empty. So commas in
a row, or at an end, do not matter. -/
def items (value : List Char) : List String :=
  (((value.splitOn ',').map trim).filter (!·.isEmpty)).map String.ofList

/-- Read a number below 65536; the error names the key and shows the value as it stands. -/
def readPort (key : String) (value : List Char) : Except Error UInt16 :=
  match Text.decimal? 65536 value with
  | some n => .ok (UInt16.ofNat n)
  | none => .error (.notPort key value)

/-- Read a number below 65536, if the key is there; without the key nothing is wrong. -/
def readPort? (s : Section) (key : String) : Except Error (Option UInt16) :=
  match s.get? key with
  | some value => (readPort key value).map some
  | none => .ok none

/-- Read a net, such as `10.9.8.1/24`, with blanks around it. -/
def readNet (value : List Char) : Except Error Net :=
  (Net.parse (String.ofList value)).mapError .badAddress

/-- Read a list of nets between commas; the first one that is wrong counts. -/
def readNets (value : List Char) : Except Error (List Net) :=
  (Net.parseAll (items value)).mapError .badAddress

/-- Read a list of addresses between commas; the first one that is wrong counts. -/
def readAddresses (value : List Char) : Except Error (List Address) :=
  (Address.parseAll (items value)).mapError .badAddress

/-- Read a private key from its base64 text, with blanks around it. -/
def readPrivateKey (value : List Char) : Except Error PrivateKey :=
  (PrivateKey.parse (String.ofList value)).mapError .badKey

/-- Read a public key from its base64 text, with blanks around it. -/
def readPublicKey (value : List Char) : Except Error PublicKey :=
  (PublicKey.parse (String.ofList value)).mapError .badKey

/-! ## Writing -/

/-- The line of an entry, `key = value`; keys fill ten columns, so that the equals signs stand below
each other. -/
def writeEntry (e : Entry) : List Char :=
  e.1 ++ List.replicate (10 - e.1.length) ' ' ++ [' ', '=', ' '] ++ e.2 ++ ['\n']

/-- The comment line before a title, unless it would be empty. Nothing in the text is escaped, so a
line feed in it ends the comment. -/
def writeComment : Option (List Char) → List Char
  | none => []
  | some [] => []
  | some text => ['#', ' '] ++ text ++ ['\n']

/-- The lines of a section: its comment, its title in brackets and its entries. -/
def write (s : Section) : List Char :=
  writeComment s.comment ++ '[' :: s.title ++ [']', '\n'] ++ s.entries.flatMap writeEntry

/-- The text of a file: its sections with a blank line between them, and none at its end. -/
def writeAll (sections : List Section) : List Char :=
  Text.joinWith ['\n'] (sections.map write)

end Section

end WireKeeper.Config
