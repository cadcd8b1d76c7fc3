import WireKeeper.Shell.State

/-! # Running a script

Words become fields: what is put in outside of quotes is split at blanks, a quoted text is one field
even when it is empty, and quoted arguments are a field each.

A script runs by steps from a supply. One that uses up its supply counts as **endless**, which is an
ending of its own and no failure of the script.

`Script.run` runs the text of a script and gives its `Run`. -/

namespace WireKeeper.Shell

/-- What words are made of once everything is put in: characters, and where fields begin and end. -/
inductive Atom where
  | char (quoted : Bool) (c : Char)
  /-- There is a field here even if it has no characters. -/
  | mark
  /-- One field ends and another begins. -/
  | cut
  deriving DecidableEq, Repr

namespace Atom

/-- The atoms of a text in quotes, which make a field even if there are no characters. -/
def ofQuoted (text : List Char) : List Atom := mark :: text.map (char true)

/-- The atoms of a text that is split at blanks: every blank ends a field. -/
def ofSplit (text : List Char) : List Atom :=
  text.map fun c => if c == ' ' || c == '\t' || c == '\n' then cut else char true c

/-- Split atoms at their blanks that are not quoted; the characters that are left count
as quoted. -/
def splitBlanks (atoms : List Atom) : List Atom :=
  atoms.map fun a => match a with
    | char false c => if Text.isBlank c then cut else char true c
    | a => a

/-- The characters among atoms, quoted or not, with a blank for each cut. -/
def text (atoms : List Atom) : List Char :=
  atoms.filterMap fun a => match a with
    | char _ c => some c
    | mark => none
    | cut => some ' '

/-- The fields of atoms: what stands between cuts, as far as there is something, be it a
mark only. -/
def fields (atoms : List Atom) : List (List Char) :=
  ((atoms.splitOn cut).filter (!·.isEmpty)).map text

/-- The ranges of a set in a pattern; a single character is a range of one. -/
def ranges : List Char → List (Char × Char)
  | a :: '-' :: b :: rest => (a, b) :: ranges rest
  | a :: rest => (a, a) :: ranges rest
  | [] => []

/-- Read a set after its bracket: whether a character is in it, and the rest of the pattern. `none`
for a bracket that nothing closes. -/
def readSet (pattern : List Atom) : Option ((Char → Bool) × List Atom) :=
  let isPlain := fun (c : Char) (a : Atom) => a == char false c
  let other := pattern.head?.any fun a => isPlain '!' a || isPlain '^' a
  let body := if other then pattern.tail else pattern
  let inside := body.take 1 ++ body.tail.takeWhile (!isPlain ']' ·)
  match body.drop inside.length with
  | _ :: rest =>
    let members := ranges (text inside)
    some (fun c => members.any (fun r => r.1 ≤ c && c ≤ r.2) != other, rest)
  | [] => none

/-- Whether a pattern fits a text: `*` stands for any characters, `?` for one and a set in brackets
for one of its characters. A quoted character stands for itself. -/
def fits (pattern : List Atom) (s : List Char) : Bool :=
  match pattern, s with
  | [], s => s.isEmpty
  | char false '*' :: ps, [] => fits ps []
  | char false '*' :: ps, c :: cs => fits ps (c :: cs) || fits (char false '*' :: ps) cs
  | char false '?' :: ps, cs => !cs.isEmpty && fits ps cs.tail
  | char quoted p :: ps, c :: cs =>
    match if quoted || p ≠ '[' then none else readSet ps with
    | some (member, rest) =>
      if _h : rest.length < (char quoted p :: ps).length then member c && fits rest cs else false
    | none => p == c && fits ps cs
  | char _ _ :: _, [] => false
  | _ :: ps, cs => fits ps cs
termination_by (pattern.length, s.length)

end Atom

/-- The atoms of the arguments: in quotes a field each, and else split at blanks. -/
def argumentAtoms (quoted : Bool) (arguments : List (List Char)) : List Atom :=
  let each := arguments.map (if quoted then Atom.ofQuoted else Atom.ofSplit)
  (each.intersperse [.cut]).flatten

/-- The text that is left without what fits a pattern at one end: the least such part, or the
greatest. Where nothing fits, all of it is left. -/
def Atom.strip (atEnd longest : Bool) (pattern : List Atom) (text : List Char) : List Char :=
  let sizes := List.range (text.length + 1)
  let sizes := if longest then sizes.reverse else sizes
  let part := fun n => if atEnd then text.drop (text.length - n) else text.take n
  match sizes.find? fun n => Atom.fits pattern (part n) with
  | some n => if atEnd then text.take (text.length - n) else text.drop n
  | none => text

/-- Go on after the body of a loop: whether there is a next round. What leaves several loops at once
leaves this one and counts down. -/
def State.afterRound (s : State) : Bool × State :=
  match s.leaving with
  | none => (true, s)
  | some (.nextRound 0) => (true, { s with leaving := none })
  | some (.nextRound (n + 1)) => (false, { s with leaving := some (.nextRound n) })
  | some (.breakLoop 0) => (false, { s with leaving := none })
  | some (.breakLoop (n + 1)) => (false, { s with leaving := some (.breakLoop n) })
  | some _ => (false, s)

/-- The name of a program, without the directory where programs are; one in any other directory
keeps it. -/
def programName (path : String) : String :=
  let name := ["/bin/", "/usr/bin/"].findSome? fun (directory : String) =>
    Text.dropStart? directory.toList path.toList
  (name.map String.ofList).getD path

mutual

/-- The atoms of a word, piece by piece, which may run commands and set variables on the way. The
first argument of all that follows is the supply of steps. -/
def atoms : Nat → Word → State → List Atom × State
  | 0, _, s => ([], s.stop)
  | _ + 1, [], s => ([], s)
  | n + 1, piece :: w, s =>
    let insert := fun quoted text => if quoted then Atom.ofQuoted text else Atom.ofSplit text
    let (here, s) := match piece with
      | .plain quoted text =>
        (if quoted then Atom.ofQuoted text else text.map (Atom.char false), s)
      | .parameter quoted name wanted => parameterAtoms n quoted name wanted s
      | .number quoted expression =>
        let (expression, s) := atoms n (readPieces s.line true expression).1 s
        match Arithmetic.eval s.value (Atom.text expression) with
        | .ok v => (insert quoted (toString v).toList, s)
        | .error e => ([], s.abort (e.message (Atom.text expression)))
      | .output quoted line script =>
        let (bytes, s) := capture n (Script.ofText line script) s
        let text := Utf8.decodeLossyFrom 0 bytes
        (insert quoted (text.reverse.dropWhile (· == '\n')).reverse, s)
      | .fault _ => ([], s)
    let (rest, s) := atoms n w s
    (here ++ rest, s)

/-- The atoms of what is taken of a parameter: its value, its size, another word in its place, or a
part of it. -/
def parameterAtoms : Nat → Bool → List Char → Wanted → State → List Atom × State
  | 0, _, _, _, s => ([], s.stop)
  | n + 1, quoted, name, wanted, s =>
    let value? := s.value? name
    let value := value?.getD []
    let asIs := if quoted then Atom.ofQuoted value else Atom.ofSplit value
    let hasValue := fun (notEmpty : Bool) => value?.isSome && !(notEmpty && value.isEmpty)
    let word := fun text s =>
      let (atoms, s) := atoms n (readWhole s.line quoted text) s
      (if quoted then atoms else Atom.splitBlanks atoms, s)
    if name.isEmpty then ([], s.abort "Bad substitution")
    else
      match wanted with
      | .value =>
        if name = ['@'] || name = ['*'] && !quoted then (argumentAtoms quoted s.arguments, s)
        else if s.strict && value?.isNone then
          ([], s.abort s!"{String.ofList name}: parameter not set")
        else (asIs, s)
      | .size => (Atom.ofSplit (Text.decimal value.length), s)
      | .orElse orEmpty assign text =>
        if hasValue orEmpty then (asIs, s)
        else
          let (atoms, s) := word text s
          (atoms, if assign then s.assign name (Atom.text atoms) else s)
      | .orFail orEmpty message =>
        if hasValue orEmpty then (asIs, s)
        else
          let (atoms, s) := word message s
          let shown := if message.isEmpty then "parameter not set".toList else Atom.text atoms
          ([], s.abort s!"{String.ofList name}: {String.ofList shown}")
      | .ifSet notEmpty text => if hasValue notEmpty then word text s else ([], s)
      | .without atEnd longest pattern =>
        let (pattern, s) := atoms n (readWhole s.line false pattern) s
        let left := Atom.strip atEnd longest pattern value
        (if quoted then Atom.ofQuoted left else Atom.ofSplit left, s)

/-- The fields of words, one word after the other. -/
def fields : Nat → List Word → State → List (List Char) × State
  | 0, _, s => ([], s.stop)
  | _ + 1, [], s => ([], s)
  | n + 1, w :: ws, s =>
    let (here, s) := atoms n w s
    let (rest, s) := fields n ws s
    (Atom.fields here ++ rest, s)

/-- What a script prints when it runs on its own: its variables are gone afterwards, its time and
its files are not. -/
def capture : Nat → Script → State → Bytes × State
  | 0, _, s => ([], s.stop)
  | n + 1, script, s =>
    let own := runScript n script
      { s with output := [], outputSink := .output, status := 0, atEnd := [] }
    (own.output.reverse.flatten, { s.adopt own with output := s.output })

/-- Set variables, one after the other, so a later one may use an earlier one. -/
def assignAll : Nat → List (List Char × Word) → State → State
  | 0, _, s => s.stop
  | _ + 1, [], s => s
  | n + 1, (name, w) :: rest, s =>
    let (value, s) := atoms n w s
    assignAll n rest (s.assign name (Atom.text value))

/-- Redirect streams; at the first failure nothing is run, and the status says so. -/
def redirectAll : Nat → List Redirect → State → Except State State
  | 0, _, s => .ok s.stop
  | _ + 1, [], s => .ok s
  | n + 1, r :: rest, s =>
    let (target, s) := atoms n r.target s
    match s.redirect r.stream r.sign (String.ofList (Atom.text target)) with
    | .ok s => redirectAll n rest s
    | .error text => .error ({ s with line := r.line }.fail 2 text)

/-- Run a script in the state at hand; what cannot be read is reported once the lines before it have
run. -/
def runScript : Nat → Script → State → State
  | 0, _, s => s.stop
  | n + 1, script, s =>
    let s := runLines n script.lines s
    match script.fault with
    | none => s
    | some fault =>
      if s.leaving.isSome then s
      else { s with line := fault.line }.abort s!"Syntax error: {fault.text}"

/-- Run lines one after the other; a line does nothing once the script is leaving. -/
def runLines : Nat → List Command → State → State
  | 0, _, s => s.stop
  | _ + 1, [], s => s
  | n + 1, c :: cs, s => runLines n cs (run n c s)

/-- Run a command by name; `caller` names the command that runs it, if there is one. A function
comes before a program of the same name. -/
def runNamed : Nat → String → List Char → List (List Char) → State → State
  | 0, _, _, _, s => s.stop
  | n + 1, caller, name, arguments, s =>
    let text := String.ofList name
    let unknown := fun (_ : Unit) =>
      if name.isEmpty then s.fail 126 ": Permission denied"
      else if name.contains '/' && (s.disk.find (s.disk.resolve text)).isOk then
        s.fail 126 s!"{caller}{text}: Permission denied"
      else s.fail 127 s!"{caller}{text}: not found"
    match s.functions.lookup name with
    | some body =>
      let t := run n body { s with arguments := arguments }
      let leaving := if t.leaving = some .returned then none else t.leaving
      { t with arguments := s.arguments, leaving := leaving }
    | none =>
      match programName text, arguments with
      | "eval", _ =>
        runScript n (Script.ofText 1 (Text.joinWith [' '] arguments)) (s.withStatus 0)
      | "command", name :: arguments => runNamed n caller name arguments s
      | "sh", ['-', 'c'] :: script :: rest =>
        let title := (rest.head?.map String.ofList).getD text
        let own : State := { s with title := title, arguments := rest.tail, functions := [],
                                    status := 0, atEnd := [] }
        s.adopt (runScript n (Script.ofText 1 script) own)
      | program, _ =>
        match s.perform? program arguments with
        | some s => s
        | none => unknown ()

/-- Run a simple command once its words are fields. Without a name it only sets variables. -/
def runFields : Nat → List (List Char × Word) → List (List Char) → List Redirect → State → State
  | 0, _, _, _, s => s.stop
  | n + 1, settings, fs, redirects, s =>
    match redirectAll n redirects s with
    | .error t => if fs.head? = some "exec".toList then t.exit 2 else t
    | .ok t =>
      match fs with
      | [] => (assignAll n settings (t.withStatus 0)).restore s redirects
      | name :: arguments =>
        if name = "exec".toList then
          match arguments with
          | [] => t.withStatus 0
          | name :: arguments =>
            let t := runNamed n "exec: " name arguments t
            if t.leaving.isSome then t else t.exit t.status
        else
          let u := assignAll n settings t
          if u.leaving.isSome then u
          else
            let after := (runNamed n "" name arguments u).restore s redirects
            if settings.isEmpty then after else after.unassign t (settings.map (·.1))

/-- Run a command whose failure is only looked at, so that it does not end the script. -/
def runTested : Nat → Command → State → State
  | 0, _, s => s.stop
  | n + 1, c, s => { run n c { s with tested := true } with tested := s.tested }

/-- Run a command; nothing happens if the script is leaving. -/
def run : Nat → Command → State → State
  | 0, _, s => s.stop
  | n + 1, c, s =>
    if s.leaving.isSome then s
    else
      match c with
      | .skip => s
      | .simple line settings words redirects =>
        let (fs, s) := fields n words { s with line := line }
        if s.leaving.isSome then s else (runFields n settings fs redirects s).checked
      | .sequence a b => run n b (run n a s)
      | .andThen a b =>
        let s := runTested n a s
        if s.status = 0 then run n b s else s
      | .orElse a b =>
        let s := runTested n a s
        if s.status = 0 then s else run n b s
      | .invert a =>
        let s := runTested n a s
        s.withStatus (if s.status = 0 then 1 else 0)
      | .pipe a b =>
        let (bytes, s) := capture n ⟨[a], none⟩ s
        let own := run n b { s with input := bytes }
        { s.adopt own with input := s.input }.checked
      | .branch condition yes no =>
        let s := runTested n condition s
        if s.leaving.isSome then s
        else if s.status = 0 then run n yes s
        else run n no (s.withStatus 0)
      | .loop untilOk condition body =>
        { runLoop n untilOk condition body 0 { s with loops := s.loops + 1 } with loops := s.loops }
      | .each name words body =>
        let (values, s) := fields n words s
        { runEach n name values body { s with loops := s.loops + 1, status := 0 } with
          loops := s.loops }
      | .choose subject arms =>
        let (value, s) := atoms n subject s
        runArms n (Atom.text value) arms (s.withStatus 0)
      | .group own body redirects =>
        match redirectAll n redirects s with
        | .error t => t.checked
        | .ok t =>
          if own then ((s.adopt (run n body { t with atEnd := [] })).restore s redirects).checked
          else (run n body t).restore s redirects
      | .define name body =>
        { s with functions := (name, body) :: s.functions.filter (·.1 ≠ name), status := 0 }

/-- Repeat a body; `last` is the status of the round before, which is that of the loop. -/
def runLoop : Nat → Bool → Command → Command → Nat → State → State
  | 0, _, _, _, _, s => s.stop
  | n + 1, untilOk, condition, body, last, s =>
    let s := runTested n condition s
    if s.leaving.isSome then s.afterRound.2
    else if (s.status == 0) == untilOk then s.withStatus last
    else
      let (goesOn, s) := (run n body s).afterRound
      if goesOn then runLoop n untilOk condition body s.status s else s

/-- Run a body for each of several values, which the variable has in turn. -/
def runEach : Nat → List Char → List (List Char) → Command → State → State
  | 0, _, _, _, s => s.stop
  | _ + 1, _, [], _, s => s
  | n + 1, name, value :: values, body, s =>
    let (goesOn, s) := (run n body (s.assign name value)).afterRound
    if goesOn then runEach n name values body s else s

/-- Run the first arm with a pattern that fits, and none after it. -/
def runArms : Nat → List Char → List (List Word × Command) → State → State
  | 0, _, _, s => s.stop
  | _ + 1, _, [], s => s
  | n + 1, value, (patterns, body) :: arms, s =>
    let (fitting, s) := fitsAny n value patterns s
    if fitting then run n body s else runArms n value arms s

/-- Whether one of several patterns fits; those behind it are not looked at. -/
def fitsAny : Nat → List Char → List Word → State → Bool × State
  | 0, _, _, s => (false, s.stop)
  | _ + 1, _, [], s => (false, s)
  | n + 1, value, w :: ws, s =>
    let (pattern, s) := atoms n w s
    if Atom.fits pattern value then (true, s) else fitsAny n value ws s

end

/-- What comes of a script, as far as those who have started it can see. -/
structure Run where
  /-- The status, unless the script was ended by a signal. -/
  status : Option Nat
  output : Bytes
  errors : Bytes
  /-- How many milliseconds it took, unless it does not end. -/
  elapsed : Option Nat
  disk : Disk

namespace Script

/-- How many steps a script may take before it counts as endless: more than any script that ends in
time needs here. -/
def supply : Nat := 200000

/-- Run what a script has set up for its end, unless it was ended from outside. -/
def finish (s : State) : State :=
  if s.atEnd.isEmpty || s.leaving = some .killed || s.leaving = some .endless then s
  else
    let t := runScript supply (ofText 1 s.atEnd) { s with atEnd := [], leaving := none }
    if t.leaving.isSome then t else t.withStatus s.status

/-- Run the text of a script that begins at a given line of its file, with its title and arguments
on a disk. -/
def run (line : Nat) (script title : String) (arguments : List String) (disk : Disk) : Run :=
  let s : State := { title := title, arguments := arguments.map String.toList, disk := disk }
  let s := finish (runScript supply (ofText line script.toList) s)
  ⟨if s.leaving = some .killed then none else some s.status, s.output.reverse.flatten,
    s.errors.reverse.flatten, if s.leaving = some .endless then none else some s.elapsed, s.disk⟩

end Script

end WireKeeper.Shell
