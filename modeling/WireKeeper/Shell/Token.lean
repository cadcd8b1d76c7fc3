import WireKeeper.Text.Basic

/-! # Tokens of a script

The text of a shell script as words, signs and line ends.

A **word** is a list of pieces: plain characters, what is taken of a parameter, the output of a
command or the value of an arithmetic expression. What stands in quotes is marked, for it is not
split into fields. Commands and expressions inside words are kept as text until they are needed.

A word that never closes takes the rest of the script and becomes a fault.

* `readPieces` reads a word;
* `tokens` reads a script. -/

namespace WireKeeper.Shell

/-- What is taken of a parameter; texts inside are read only when they are needed. -/
inductive Wanted where
  | value
  /-- How many characters its value has. -/
  | size
  /-- Another text where there is no value, or an empty one; it may become the value. -/
  | orElse (orEmpty assign : Bool) (text : List Char)
  /-- A message where there is no value. -/
  | orFail (orEmpty : Bool) (message : List Char)
  /-- Another text where there is a value. -/
  | ifSet (notEmpty : Bool) (text : List Char)
  /-- The value less what fits a pattern at one end. -/
  | without (atEnd longest : Bool) (pattern : List Char)
  deriving Repr, DecidableEq

/-- A piece of a word; `quoted` says whether it stands in quotes, and so is not split. -/
inductive Piece where
  | plain (quoted : Bool) (text : List Char)
  /-- Something of a parameter. -/
  | parameter (quoted : Bool) (name : List Char) (wanted : Wanted)
  /-- The output of a script that begins on a numbered line. -/
  | output (quoted : Bool) (line : Nat) (script : List Char)
  /-- The value of an arithmetic expression. -/
  | number (quoted : Bool) (expression : List Char)
  /-- What keeps the word from being read. -/
  | fault (message : String)
  deriving Repr, DecidableEq

/-- A word: its pieces, one after the other, without blanks between them. -/
abbrev Word := List Piece

namespace Word

/-- The text of a word that has no quotes and nothing to put in; `none` for any other. -/
def bare? : Word → Option (List Char)
  | [] => some []
  | .plain false text :: rest => (bare? rest).map (text ++ ·)
  | _ => none

/-- The plain text of a word, quoted or not; all other pieces are left out. -/
def plain (w : Word) : List Char :=
  w.flatMap fun p => match p with
    | .plain _ text => text
    | _ => []

/-- What keeps a word from being read: the first fault among its pieces. -/
def fault? (w : Word) : Option String :=
  w.findSome? fun p => match p with
    | .fault message => some message
    | _ => none

end Word

/-- A token, with the line that a message about it would name. -/
inductive Token where
  /-- A word on a numbered line. -/
  | word (line : Nat) (w : Word)
  /-- One of the signs between words; a line feed is one of them, and so is the empty end. -/
  | sign (line : Nat) (text : String)
  /-- A sign of redirection with the number of the stream it is for. -/
  | redirect (line stream : Nat) (sign : String)
  /-- A word that cannot be read. -/
  | fault (line : Nat) (message : String)
  deriving Repr, DecidableEq

/-- Whether a character ends a word: a blank, a line feed, or the start of a sign. -/
def isMeta (c : Char) : Bool :=
  c == ' ' || c == '\t' || c == '\n' || c == ';' || c == '&' || c == '|' || c == '<' || c == '>' ||
    c == '(' || c == ')'

/-- The characters of names, of which a digit may not be the first. -/
def isNameChar (c : Char) : Bool := c.isAlphanum || c == '_'

/-- Whether a text is a name, as variables and functions have. -/
def isName (s : List Char) : Bool := !s.isEmpty && s.all isNameChar && !s.head?.any Char.isDigit

/-- Whether a character is the mark around an old spelling of commands in words. -/
def isBackquote (c : Char) : Bool := c.toNat == 0x60

/-! ## Words -/

/-- Split at the bracket that closes one already open, given how many more are open; quoted ones do
not count. -/
def closing (opener closer : Char) (depth : Nat) (quote : Option Char) :
    List Char → Option (List Char × List Char)
  | [] => none
  | c :: rest =>
    let go := fun depth quote =>
      (closing opener closer depth quote rest).map fun (inside, rest) => (c :: inside, rest)
    match quote with
    | some '\\' => go depth none
    | some q => go depth (if c = q then none else some q)
    | none =>
      if c = '\'' || c = '"' || c = '\\' then go depth (some c)
      else if c = opener then go (depth + 1) none
      else if c = closer then if depth = 0 then some ([], rest) else go (depth - 1) none
      else go depth none

/-- Split at the next backquote; a backslash protects one, and is dropped there. -/
def backquoted : List Char → Option (List Char × List Char)
  | [] => none
  | '\\' :: c :: rest =>
    (backquoted rest).map fun (inside, rest) =>
      (if isBackquote c || c == '\\' || c == '$' then (c :: inside, rest)
        else ('\\' :: c :: inside, rest))
  | c :: rest =>
    if isBackquote c then some ([], rest)
    else (backquoted rest).map fun (inside, rest) => (c :: inside, rest)

/-- What is taken of a parameter, by the text after its name; a colon makes an empty value count as
none. -/
def Wanted.ofText? : List Char → Option Wanted
  | [] => some .value
  | ':' :: '-' :: text => some (.orElse true false text)
  | '-' :: text => some (.orElse false false text)
  | ':' :: '=' :: text => some (.orElse true true text)
  | '=' :: text => some (.orElse false true text)
  | ':' :: '?' :: text => some (.orFail true text)
  | '?' :: text => some (.orFail false text)
  | ':' :: '+' :: text => some (.ifSet true text)
  | '+' :: text => some (.ifSet false text)
  | '%' :: '%' :: text => some (.without true true text)
  | '%' :: text => some (.without true false text)
  | '#' :: '#' :: text => some (.without false true text)
  | '#' :: text => some (.without false false text)
  | _ => none

/-- What stands between braces after a dollar sign. A text that means nothing becomes a parameter
without a name, which is reported when it is taken. -/
def braced (quoted : Bool) (text : List Char) : Piece :=
  let named := fun (text : List Char) =>
    let name := if text.head?.any isNameChar then text.takeWhile isNameChar else text.take 1
    (name, text.drop name.length)
  let whole := named text
  match text, named text.tail with
  | '#' :: _ :: _, (name, []) => .parameter quoted name .size
  | [], _ => .parameter quoted [] .value
  | _, _ =>
    match Wanted.ofText? whole.2 with
    | some wanted => .parameter quoted whole.1 wanted
    | none => .parameter quoted [] .value

/-- Read what a dollar sign begins: an expression, a command, a parameter, or just the sign. -/
def readDollar (line : Nat) (quoted : Bool) (s : List Char) : Piece × List Char :=
  match s with
  | '(' :: rest =>
    match closing '(' ')' 0 none rest with
    | some ('(' :: inside, rest) => (.number quoted inside.dropLast, rest)
    | some (inside, rest) => (.output quoted line inside, rest)
    | none =>
      (.fault (if rest.head? = some '(' then "Missing '))'"
        else "end of file unexpected (expecting \")\")"), [])
  | '\x7b' :: rest =>
    match closing '\x7b' '\x7d' 0 none rest with
    | some (inside, rest) => (braced quoted inside, rest)
    | none => (.fault "Missing '\x7d'", [])
  | c :: rest =>
    if c.isDigit || "#@*?$!-".toList.contains c then (.parameter quoted [c] .value, rest)
    else if isNameChar c then
      (.parameter quoted (s.takeWhile isNameChar) .value, s.dropWhile isNameChar)
    else (.plain quoted ['$'], s)
  | [] => (.plain quoted ['$'], [])

/-- Read one piece of a word; a quotation mark switches quoting. `none` where the word ends. -/
def readPiece (line : Nat) (quoted : Bool) (s : List Char) :
    Option (List Piece × Bool × List Char) :=
  match s with
  | [] => none
  | '\\' :: '\n' :: rest => some ([], quoted, rest)
  | '\\' :: c :: rest =>
    if quoted && !(c == '$' || c == '"' || c == '\\' || isBackquote c) then
      some ([.plain true ['\\', c]], quoted, rest)
    else some ([.plain true [c]], quoted, rest)
  | '"' :: rest => some ([.plain true []], !quoted, rest)
  | '$' :: rest =>
    let (piece, rest) := readDollar line quoted rest
    some ([piece], quoted, rest)
  | c :: rest =>
    if isBackquote c then
      match backquoted rest with
      | some (text, rest) => some ([.output quoted 1 text], quoted, rest)
      | none => some ([.fault "EOF in backquote substitution"], quoted, [])
    else if quoted then some ([.plain true [c]], quoted, rest)
    else if isMeta c then none
    else if c = '\'' then
      match Text.cutFirst '\'' rest with
      | some (text, rest) => some ([.plain true text], quoted, rest)
      | none => some ([.fault "Unterminated quoted string"], quoted, [])
    else some ([.plain false [c]], quoted, rest)

/-- How many line ends there are between two points of a text, of which the second is an
end of it. -/
def linesTaken (s rest : List Char) : Nat := (s.take (s.length - rest.length)).count '\n'

/-- Read a word to its end; tells whether the end is in quotes, which are then not closed. -/
def readPieces (line : Nat) (quoted : Bool) (s : List Char) : Word × Bool × List Char :=
  match readPiece line quoted s with
  | none => ([], quoted, s)
  | some (pieces, quoted, rest) =>
    if _h : rest.length < s.length then
      let (more, result) := readPieces (line + linesTaken s rest) quoted rest
      (pieces ++ more, result)
    else ([], quoted, s)
termination_by s.length

/-- Read a word in which quotation marks stand for themselves, as in a text that stands below. -/
def readPlain (line : Nat) (s : List Char) : Word :=
  let parts := (s.splitOn '"').map fun part => (readPieces line true part).1
  (parts.intersperse [.plain true ['"']]).flatten

/-- Read a whole text as a word, with the blanks and signs in it. -/
def readWhole (line : Nat) (quoted : Bool) (s : List Char) : Word :=
  match readPieces line quoted s with
  | (w, _, []) => w
  | (w, _, c :: rest) =>
    if _h : rest.length < s.length then w ++ .plain quoted [c] :: readWhole line quoted rest else w
termination_by s.length

/-! ## Tokens -/

/-- The signs, longer ones first, so that the longest one that fits is found first. -/
def signs : List String := ["&&", "||", ";;", ";", "&", "|", "(", ")", "\n"]

/-- The signs of redirection, longer ones first, so that the longest one that fits is
found first. -/
def redirectSigns : List String := [">>", ">&", ">|", "<&", ">", "<"]

/-- Read one of several signs: the first of them that the text begins with. -/
def readSign (signs : List String) (s : List Char) : Option (String × List Char) :=
  signs.findSome? fun sign => (Text.dropStart? sign.toList s).map fun rest => (sign, rest)

/-- Read a sign of redirection, with the number before it, which has one digit. -/
def readRedirect (line : Nat) (s : List Char) : Option (Token × List Char) :=
  match s with
  | c :: rest =>
    let numbered := if c.isDigit then readSign redirectSigns rest else none
    match numbered with
    | some (sign, rest) => some (.redirect line (c.toNat - 48) sign, rest)
    | none => (readSign redirectSigns s).map fun (sign, rest) =>
        (.redirect line (if sign.startsWith "<" then 0 else 1) sign, rest)
  | [] => none

/-- Read one token; blanks, folded lines and comments give none, but are passed. -/
def readToken (line : Nat) (s : List Char) : Option (Option Token × List Char) :=
  match s with
  | [] => none
  | ' ' :: rest => some (none, rest)
  | '\t' :: rest => some (none, rest)
  | '\\' :: '\n' :: rest => some (none, rest)
  | '#' :: rest => some (none, rest.dropWhile (· ≠ '\n'))
  | _ =>
    match readRedirect line s with
    | some (t, rest) => some (some t, rest)
    | none =>
      match readSign signs s with
      | some (sign, rest) => some (some (.sign line sign), rest)
      | none =>
        let (w, inQuotes, rest) := readPieces line false s
        let last := line + linesTaken s rest
        match w.fault? with
        | some message => some (some (.fault last message), rest)
        | none =>
          let whole := some (some (.word line w), rest)
          if inQuotes then some (some (.fault last "Unterminated quoted string"), rest) else whole

/-- The lines up to a mark and those after it, if the mark is there on a line of its own. -/
def untilMark (mark : List Char) : List (List Char) → Option (List (List Char) × List (List Char))
  | [] => none
  | l :: ls =>
    if l = mark then some ([], ls)
    else (untilMark mark ls).map fun (before, after) => (l :: before, after)

/-- Read a text that stands in the lines below: its word, how many lines it takes, and the script
without them. -/
def readBelow (line : Nat) (s : List Char) : Option (Word × Nat × List Char) :=
  (Text.dropStart? "<<".toList s).map fun rest =>
    let strip := rest.head? = some '-'
    let rest := (if strip then rest.tail else rest).dropWhile fun c => c == ' ' || c == '\t'
    let (mark, _, rest) := readPieces line false rest
    let here := rest.takeWhile (· ≠ '\n')
    let below := (rest.drop (here.length + 1)).splitOn '\n'
    let below := if strip then below.map (·.dropWhile (· == '\t')) else below
    let (body, after) := match untilMark mark.plain below with
      | some (body, after) => (body.flatMap (· ++ ['\n']), after)
      | none => (Text.joinWith ['\n'] below, [])
    let w := if mark.bare?.isSome then readPlain (line + 1) body else [.plain true body]
    (w, below.length - after.length, here ++ '\n' :: Text.joinWith ['\n'] after)

/-- The tokens of a script, whose first line has a given number; some lines may be owed to texts
that were read before their turn. Nothing follows a fault. -/
def tokens (line owed : Nat) (s : List Char) : List Token :=
  match readBelow line s with
  | some (w, lines, rest) =>
    if _h : rest.length < s.length then
      .redirect line 0 "<<" :: .word line w :: tokens line (owed + lines) rest
    else []
  | none =>
    match readToken line s with
    | none => [.sign line ""]
    | some (t, rest) =>
      if _h : rest.length < s.length then
        let next := line + linesTaken s rest
        match t with
        | some (.sign _ "\n") => .sign (next + owed) "\n" :: tokens (next + owed) 0 rest
        | some (.fault last message) => [.fault last message]
        | some t => t :: tokens next owed rest
        | none => tokens next owed rest
      else []
termination_by s.length

end WireKeeper.Shell
