import WireKeeper.Shell.Token

/-! # Commands of a script

The commands of a shell and how they are read from tokens: simple commands with their settings and
redirections, lists, pipes, branches, loops, groups and functions.

Readers take tokens and give what is left. A script has finitely many tokens, and every reader that
calls another one spends one step of a budget that is computed from their number.

`Script.ofText` reads a script line by line; what cannot be read ends it and is kept with the line
it is on, because the lines before it still run. -/

namespace WireKeeper.Shell

/-- A redirection of a stream: the sign says where to, and the target is a word that may have
parameters in it. -/
structure Redirect where
  line : Nat
  stream : Nat
  sign : String
  target : Word
  deriving Repr

/-- A command of a script, with the line it stands on where an error may name it. -/
inductive Command where
  | skip
  /-- Set variables and run a program with arguments. -/
  | simple (line : Nat) (settings : List (List Char × Word)) (words : List Word)
      (redirects : List Redirect)
  | sequence (first second : Command)
  /-- The second only if the first succeeds. -/
  | andThen (first second : Command)
  /-- The second only if the first fails. -/
  | orElse (first second : Command)
  | invert (c : Command)
  /-- The second reads what the first prints. -/
  | pipe (first second : Command)
  | branch (condition yes no : Command)
  /-- Repeat while the condition succeeds, or until it does. -/
  | loop (untilOk : Bool) (condition body : Command)
  /-- Repeat for the fields of words. -/
  | each (name : List Char) (words : List Word) (body : Command)
  /-- The first arm with a matching pattern. -/
  | choose (subject : Word) (arms : List (List Word × Command))
  /-- A group; a group of its own leaves variables as they were. -/
  | group (own : Bool) (body : Command) (redirects : List Redirect)
  /-- Make a function. -/
  | define (name : List Char) (body : Command)

/-- Why a script cannot be read, and where: the line counts from the start of the file. -/
structure SyntaxError where
  line : Nat
  text : String
  deriving Repr, DecidableEq

/-- A reader of tokens: what it has read and the tokens that are left. -/
abbrev Reader (α : Type) := List Token → Except SyntaxError (α × List Token)

namespace Token

/-- The words that mean something where a command begins, and nothing special elsewhere. -/
def reserved : List String :=
  ["if", "then", "elif", "else", "fi", "for", "in", "while", "until", "do", "done", "case", "esac",
    "\x7b", "\x7d", "!"]

/-- The text of a token that is a word without quotes, for only such a word can be reserved. -/
def bare? : Token → Option String
  | .word _ w => w.bare?.map String.ofList
  | _ => none

/-- Whether a token is one of some signs, such as `;` or `&&`; the end of the text is the empty
sign. -/
def isSign (signs : List String) : Token → Bool
  | .sign _ text => signs.contains text
  | _ => false

/-- Whether a token is one of some reserved words, without quotes. -/
def isWord (words : List String) (t : Token) : Bool := t.bare?.any words.contains

/-- The line of a token, the one where it begins. -/
def line : Token → Nat
  | .word line _ => line
  | .sign line _ => line
  | .redirect line _ _ => line
  | .fault line _ => line

/-- What a token is called where it should not be: a reserved word by itself, and any other just
`word`. -/
def shown (t : Token) : String :=
  match t with
  | .sign _ "" => "end of file"
  | .sign _ "\n" => "newline"
  | .sign _ text => s!"\"{text}\""
  | .redirect .. => "redirection"
  | _ => if t.isWord reserved then "\"" ++ t.bare?.getD "" ++ "\"" else "word"

end Token

namespace Command

/-- Refuse the next token; `expected` may stand in its place. A token that is itself a fault tells
its own message. -/
def refuse {α : Type} (expected : Option String) : Reader α
  | [] => .error ⟨0, "end of file unexpected"⟩
  | .fault line message :: _ => .error ⟨line, message⟩
  | t :: _ =>
    let missing := match expected with
      | some e => s!" (expecting {e})"
      | none => ""
    .error ⟨t.line, t.shown ++ " unexpected" ++ missing⟩

/-- Take a reserved word, which must come next. -/
def takeWord (word : String) : Reader Unit := fun ts =>
  if ts.head?.any (Token.isWord [word]) then .ok ((), ts.tail) else refuse (some s!"\"{word}\"") ts

/-- Take a sign, which must come next. -/
def takeSign (sign : String) : Reader Unit := fun ts =>
  if ts.head?.any (Token.isSign [sign]) then .ok ((), ts.tail) else refuse (some s!"\"{sign}\"") ts

/-- Skip line ends, which do not matter where a command is still to come. -/
def skipLines (ts : List Token) : List Token := ts.dropWhile (Token.isSign ["\n"])

/-- Whether a script ends here, with no command left. -/
def isEnd (ts : List Token) : Bool := ts.head?.any (Token.isSign [""])

/-- Whether a list of commands may end before a token, which then belongs to what is around the
list. -/
def closes (t : Token) : Bool :=
  t.isSign [")", ";;"] || t.isWord ["then", "do", "done", "fi", "else", "elif", "esac", "\x7d"]

/-- Whether a token ends a command and lets another follow; a command that is sent to the background
is run in its turn. -/
def separates : Token → Bool := Token.isSign [";", "&", "\n"]

/-- Split a setting `name=value` in front of a command; the name may not be quoted, the value may be
any word. -/
def setting? (w : Word) : Option (List Char × Word) :=
  let start := w.takeWhile fun p => match p with
    | .plain false [c] => isNameChar c
    | _ => false
  match w.drop start.length with
  | .plain false ['='] :: value =>
    if isName (Word.plain start) then some (Word.plain start, value) else none
  | _ => none

/-- The words and redirections up to the end of a simple command; the two may stand in any order. -/
def readSimple : Reader (List Word × List Redirect)
  | .word _ w :: ts => (readSimple ts).map fun ((ws, rs), ts) => ((w :: ws, rs), ts)
  | .redirect line stream sign :: .word _ target :: ts =>
    (readSimple ts).map fun ((ws, rs), ts) => ((ws, ⟨line, stream, sign, target⟩ :: rs), ts)
  | .redirect .. :: ts => refuse none ts
  | ts => .ok (([], []), ts)

/-- The redirections after a group, as many as there are. -/
def readRedirects : Reader (List Redirect)
  | .redirect line stream sign :: .word _ target :: ts =>
    (readRedirects ts).map fun (rs, ts) => (⟨line, stream, sign, target⟩ :: rs, ts)
  | .redirect .. :: ts => refuse none ts
  | ts => .ok ([], ts)

/-- Let redirections follow a command; they hold for all of it. -/
def redirected (c : Command) : Reader Command := fun ts =>
  (readRedirects ts).map fun (rs, ts) => (if rs.isEmpty then c else group false c rs, ts)

/-- The settings before the first other word; behind that an equals sign means nothing. -/
def splitSettings : List Word → List (List Char × Word) × List Word
  | [] => ([], [])
  | w :: ws =>
    match setting? w with
    | some s =>
      let (ss, ws) := splitSettings ws
      (s :: ss, ws)
    | none => ([], w :: ws)

/-- Read words up to the first token that is none. -/
def readWords : List Token → List Word × List Token
  | .word _ w :: ts =>
    let (ws, ts) := readWords ts
    (w :: ws, ts)
  | ts => ([], ts)

/-- Read the patterns of an arm, which bars separate and a parenthesis ends. -/
def readPatterns : Reader (List Word)
  | .word _ w :: .sign _ "|" :: ts => (readPatterns ts).map fun (ws, ts) => (w :: ws, ts)
  | .word _ w :: ts => (takeSign ")" ts).map fun (_, ts) => ([w], ts)
  | ts => refuse (some "word") ts

/-- Read what a loop over words runs through, after its variable. Without words it is the arguments
of the script. -/
def readRange : Reader (List Word) := fun ts =>
  if (skipLines ts).head?.any (Token.isWord ["in"]) then
    let (words, ts) := readWords (skipLines ts).tail
    if ts.head?.any (Token.isSign ["\n", ";"]) then .ok (words, ts.tail) else refuse none ts
  else
    let ts := skipLines ts
    let rest := if ts.head?.any (Token.isSign [";"]) then ts.tail else ts
    .ok ([[.parameter true ['@'] .value]], rest)

mutual

/-- Read a list of commands up to what closes it; at first there must be a command. -/
def readList : Nat → Bool → Reader Command
  | 0, _, ts => refuse none ts
  | n + 1, mayClose, ts =>
    let ts := skipLines ts
    if isEnd ts || mayClose && ts.head?.any closes then .ok (skip, ts)
    -- a list begins with a command, even in a group
    else do
      let (c, ts) ← readLogic n ts
      if ts.head?.any separates then
        let (d, ts) ← readList n true ts.tail
        return (sequence c d, ts)
      else return (c, ts)

/-- Read pipes joined by `&&` and `||`, which bind equally and from the left. -/
def readLogic : Nat → Reader Command
  | 0, ts => refuse none ts
  | n + 1, ts => do
    let (c, ts) ← readPipe n ts
    readLogicAfter n c ts

/-- Go on after a pipe, with what was read so far as the first part. -/
def readLogicAfter : Nat → Command → Reader Command
  | 0, _, ts => refuse none ts
  | n + 1, c, ts =>
    match ts with
    | .sign _ "&&" :: rest => do
      let (d, ts) ← readPipe n (skipLines rest)
      readLogicAfter n (andThen c d) ts
    | .sign _ "||" :: rest => do
      let (d, ts) ← readPipe n (skipLines rest)
      readLogicAfter n (orElse c d) ts
    | _ => .ok (c, ts)

/-- Read commands joined by pipes; an exclamation mark in front inverts the whole of it. -/
def readPipe : Nat → Reader Command
  | 0, ts => refuse none ts
  | n + 1, ts =>
    if ts.head?.any (Token.isWord ["!"]) then
      (readPipe n ts.tail).map fun (c, ts) => (invert c, ts)
    else do
      let (c, ts) ← readCommand n ts
      match ts with
      | .sign _ "|" :: rest => (readPipe n (skipLines rest)).map fun (d, ts) => (pipe c d, ts)
      | _ => return (c, ts)

/-- Read one command: a group, a branch, a loop, a choice, a function or a simple command, as its
first word says. -/
def readCommand : Nat → Reader Command
  | 0, ts => refuse none ts
  | n + 1, ts =>
    match ts with
    | .sign _ "(" :: rest => do
      let (body, ts) ← readList n false rest
      let (_, ts) ← takeSign ")" ts
      let (rs, ts) ← readRedirects ts
      return (group true body rs, ts)
    | .redirect .. :: _ => readPlainCommand ts
    | .word line w :: rest =>
      match w.bare?.map String.ofList with
      | some "\x7b" => do
        let (body, ts) ← readList n false rest
        let (_, ts) ← takeWord "\x7d" ts
        redirected body ts
      | some "if" => do
        let (c, ts) ← readBranch n rest
        redirected c ts
      | some "while" => readLoop n false rest
      | some "until" => readLoop n true rest
      | some "for" => readEach n rest
      | some "case" => readChoice n rest
      | some text =>
        if Token.reserved.contains text then refuse none ts
        else
          match rest with
          | .sign _ "(" :: rest => do
            let (_, rest) ← takeSign ")" rest
            if isName text.toList then
              let (body, ts) ← readCommand n (skipLines rest)
              return (define text.toList body, ts)
            else .error ⟨line, "Bad function name"⟩
          | _ => readPlainCommand ts
      | none => readPlainCommand ts
    | ts => refuse none ts
where
  /-- Read a simple command. -/
  readPlainCommand : Reader Command := fun ts => do
    let ((ws, rs), after) ← readSimple ts
    let (ss, ws) := splitSettings ws
    return (simple ((ts.head?.map Token.line).getD 0) ss ws rs, after)

/-- Read a branch after its first word; `elif` begins another branch inside it, which shares its
end. -/
def readBranch : Nat → Reader Command
  | 0, ts => refuse none ts
  | n + 1, ts => do
    let (condition, ts) ← readList n false ts
    let (_, ts) ← takeWord "then" ts
    let (yes, ts) ← readList n false ts
    if ts.head?.any (Token.isWord ["elif"]) then
      let (no, ts) ← readBranch n ts.tail
      return (branch condition yes no, ts)
    else if ts.head?.any (Token.isWord ["else"]) then
      let (no, ts) ← readList n false ts.tail
      let (_, ts) ← takeWord "fi" ts
      return (branch condition yes no, ts)
    else
      let (_, ts) ← takeWord "fi" ts
      return (branch condition yes skip, ts)

/-- Read a loop after its first word, with `untilOk` for one that ends when its condition
succeeds. -/
def readLoop : Nat → Bool → Reader Command
  | 0, _, ts => refuse none ts
  | n + 1, untilOk, ts => do
    let (condition, ts) ← readList n false ts
    let (_, ts) ← takeWord "do" ts
    let (body, ts) ← readList n false ts
    let (_, ts) ← takeWord "done" ts
    redirected (loop untilOk condition body) ts

/-- Read a loop over words after its first word; its variable must be a name. -/
def readEach : Nat → Reader Command
  | 0, ts => refuse none ts
  | n + 1, ts =>
    match ts with
    | .word line w :: ts =>
      if !w.bare?.any isName then .error ⟨line, "Bad for loop variable"⟩
      else do
        let (words, ts) ← readRange ts
        let (_, ts) ← takeWord "do" (skipLines ts)
        let (body, ts) ← readList n false ts
        let (_, ts) ← takeWord "done" ts
        redirected (each w.plain words body) ts
    | .fault .. :: _ => refuse none ts
    | t :: _ => .error ⟨t.line, "Bad for loop variable"⟩
    | [] => refuse none ts

/-- Read a choice after its first word: the subject and the arms. -/
def readChoice : Nat → Reader Command
  | 0, ts => refuse none ts
  | n + 1, ts =>
    match ts with
    | .word _ subject :: ts => do
      let (_, ts) ← takeWord "in" (skipLines ts)
      let (arms, ts) ← readArms n ts
      redirected (choose subject arms) ts
    | ts => refuse (some "word") ts

/-- Read the arms of a choice; the last one needs no sign at its end. -/
def readArms : Nat → Reader (List (List Word × Command))
  | 0, ts => refuse none ts
  | n + 1, ts =>
    let ts := skipLines ts
    if ts.head?.any (Token.isWord ["esac"]) then .ok ([], ts.tail)
    else do
      let (patterns, ts) ← readPatterns (if ts.head?.any (Token.isSign ["("]) then ts.tail else ts)
      let (body, ts) ← readList n true ts
      if ts.head?.any (Token.isWord ["esac"]) then return ([(patterns, body)], ts.tail)
      else
        let (_, ts) ← takeSign ";;" ts
        let (arms, ts) ← readArms n ts
        return ((patterns, body) :: arms, ts)

end

/-- Read the commands of a line, which a semicolon may separate. -/
def readLine : Nat → Reader Command
  | 0, ts => refuse none ts
  | n + 1, ts => do
    let (c, ts) ← readLogic (6 * ts.length + 6) ts
    match ts with
    | .sign _ "" :: _ => return (c, ts)
    | .sign _ "\n" :: rest => return (c, rest)
    | t :: rest =>
      if !separates t then refuse none ts
      else if isEnd rest then return (c, rest)
      else if rest.head?.any (Token.isSign ["\n"]) then return (c, rest.tail)
      else
        let (d, ts) ← readLine n rest
        return (sequence c d, ts)
    | [] => refuse none ts

/-- Read lines up to the end or the first fault; those in front of it are kept. -/
def readLines : Nat → List Token → List Command × Option SyntaxError
  | 0, _ => ([], none)
  | n + 1, ts =>
    let ts := skipLines ts
    if isEnd ts then ([], none)
    else
      match readLine ts.length ts with
      | .error e => ([], some e)
      | .ok (c, ts) =>
        let (cs, fault) := readLines n ts
        (c :: cs, fault)

end Command

/-- A script: the commands of its lines, and what is wrong with the first line that cannot
be read. -/
structure Script where
  lines : List Command
  fault : Option SyntaxError

/-- Read a script whose first line has a given number; the budget of its readers is the number of
its tokens. -/
def Script.ofText (line : Nat) (text : List Char) : Script :=
  let ts := tokens line 0 text
  let (lines, fault) := Command.readLines ts.length ts
  ⟨lines, fault⟩

end WireKeeper.Shell
