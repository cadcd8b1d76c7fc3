import WireKeeper.Shell.Format

/-! # Filters of a script

Programs that turn what they read into what they print: `head` and `tail` keep one end, `wc` counts,
`tr` exchanges or drops characters.

`Filter.ofCommand?` gives the filter that a name and its arguments mean. -/

namespace WireKeeper.Shell

/-- A filter: the file it reads instead of the stream, and what it prints for what it has read. -/
structure Filter where
  file : Option (List Char) := none
  apply : Bytes → Bytes

namespace Filter

/-- The lines of bytes, each with its line feed; the last one may have none. -/
def lines (b : Bytes) : List Bytes :=
  match b.splitOn 10 with
  | [] => []
  | pieces =>
    let whole := pieces.dropLast.map (· ++ [10])
    whole ++ pieces.getLast?.toList.filter (!·.isEmpty)

/-- How much of the input is kept: lines or bytes, ten lines unless something else is said. -/
structure Amount where
  inBytes : Bool := false
  /-- The sign in front of the number. -/
  sign : Option Char := none
  count : Nat := 10

/-- Read an amount after its letter; the sign is kept, for it means something else in
each filter. -/
def Amount.ofText? (inBytes : Bool) (s : List Char) : Option Amount :=
  match s with
  | '-' :: rest => (Text.digits? 10 rest).map fun n => ⟨inBytes, some '-', n⟩
  | '+' :: rest => (Text.digits? 10 rest).map fun n => ⟨inBytes, some '+', n⟩
  | _ => (Text.digits? 10 s).map fun n => ⟨inBytes, none, n⟩

/-- Read the arguments of a filter that keeps an amount, and give those that are left, which name
files. -/
def amount? : List (List Char) → Option (Amount × List (List Char))
  | ['-', 'n'] :: n :: rest => (Amount.ofText? false n).map (·, rest)
  | ['-', 'c'] :: n :: rest => (Amount.ofText? true n).map (·, rest)
  | ('-' :: 'n' :: n) :: rest => (Amount.ofText? false n).map (·, rest)
  | ('-' :: 'c' :: n) :: rest => (Amount.ofText? true n).map (·, rest)
  | ('-' :: c :: n) :: rest => (Amount.ofText? false (c :: n)).map (·, rest)
  | rest => some ({}, rest)

/-- Apply a cut to lines or bytes, whichever the amount counts. -/
def Amount.on (a : Amount) (b : Bytes) (cut : {α : Type} → List α → List α) : Bytes :=
  if a.inBytes then cut b else (cut (lines b)).flatten

/-- Keep the start, or all but an end where the number has a minus sign. -/
def head (a : Amount) (b : Bytes) : Bytes :=
  a.on b fun l => l.take (if a.sign = some '-' then l.length - a.count else a.count)

/-- Keep the end, or all from a place on, counted from one, where the number has a plus sign. -/
def tail (a : Amount) (b : Bytes) : Bytes :=
  a.on b fun l => l.drop (if a.sign = some '+' then a.count - 1 else l.length - a.count)

/-- The lines, words and bytes of an input, as a counter with some letters shows them; without
letters all three. -/
def count (letters : List Char) (b : Bytes) : List Char :=
  let all := [('l', b.count 10),
    ('w', (Text.words (Utf8.decodeLossyFrom 0 b)).length), ('c', b.length)]
  let chosen := all.filter fun p => letters.isEmpty || letters.contains p.1
  let width := if chosen.length = 1 then 0 else 7
  let shown := chosen.map fun p =>
    let digits := Text.decimal p.2
    List.replicate (width - digits.length) ' ' ++ digits
  Text.joinWith [' '] shown

/-- The bytes that a list of characters for an exchange means: escapes and ranges are put
in full. -/
def exchangeSet (s : List Char) : Bytes := ranges (Format.unescape s).1
where
  /-- Put ranges in full. -/
  ranges : Bytes → Bytes
    | a :: 45 :: b :: rest =>
      (List.range (b.toNat + 1 - a.toNat)).map (fun i => UInt8.ofNat (a.toNat + i)) ++ ranges rest
    | a :: rest => a :: ranges rest
    | [] => []

/-- Exchange bytes for those at the same place; the last one stands for all that are missing. A byte
that is not in the source stays. -/
def exchange (source target b : Bytes) : Bytes :=
  b.map fun x =>
    if source.contains x then (target[source.idxOf x]? <|> target.getLast?).getD x else x

/-- The filter that a name and its arguments mean; `none` for a name of another program, or
arguments that it does not take. -/
def ofCommand? (name : String) (arguments : List (List Char)) : Option Filter :=
  match name, arguments with
  | "head", _ => (amount? arguments).map fun (a, rest) => ⟨rest.head?, head a⟩
  | "tail", _ => (amount? arguments).map fun (a, rest) => ⟨rest.head?, tail a⟩
  | "wc", ('-' :: letters) :: rest => some (counter letters rest)
  | "wc", rest => some (counter [] rest)
  | "tr", [['-', 'd'], set] =>
    some ⟨none, fun b => b.filter fun x => !(exchangeSet set).contains x⟩
  | "tr", [source, target] => some ⟨none, exchange (exchangeSet source) (exchangeSet target)⟩
  | _, _ => none
where
  /-- A counter shows the name of its file. -/
  counter (letters : List Char) (rest : List (List Char)) : Filter :=
    let name := match rest.head? with
      | some file => ' ' :: file
      | none => []
    ⟨rest.head?, fun b => Utf8.encode (count letters b ++ name ++ ['\n'])⟩

end Filter

end WireKeeper.Shell
