import WireKeeper.Bytes.Utf8
import WireKeeper.Shell.Arithmetic
import WireKeeper.Text.Basic

/-! # Printing in a script

What the two printing commands of a shell write: `echo` joins its arguments, `printf` fills a format
and uses it again while arguments are left. Both know escapes, and an octal escape is one byte.

A conversion that is not known ends what `printf` does; an argument that is no number is reported
and printed as far as it is one. -/

namespace WireKeeper.Shell.Format

/-! ## Escapes -/

/-- The byte of an octal number, which goes around where it does not fit. -/
def octalByte (digits : List Char) : UInt8 :=
  UInt8.ofNat (Text.valueOfDigits 8 (digits.filterMap (Text.digitValue? 8)))

/-- The byte that a letter means after a backslash; `none` where a letter means none. -/
def escape? : Char → Option UInt8
  | 'a' => some 7
  | 'b' => some 8
  | 'e' => some 27
  | 'f' => some 12
  | 'n' => some 10
  | 'r' => some 13
  | 't' => some 9
  | 'v' => some 11
  | '\\' => some 92
  | _ => none

/-- Whether a character is an octal digit, `0` to `7`. -/
def isOctal (c : Char) : Bool := '0' ≤ c && c ≤ '7'

/-- Read an escape after its backslash; `spare` more digits may follow a zero. What is no escape
stays as it is, with its backslash. -/
def readEscape (spare : Nat) (s : List Char) : Bytes × List Char :=
  match s with
  | [] => ([92], [])
  | c :: rest =>
    if isOctal c then
      let size := if c = '0' then 3 + spare else 3
      let digits := (s.take size).takeWhile isOctal
      ([octalByte digits], s.drop digits.length)
    else
      match escape? c with
      | some b => ([b], rest)
      | none => (92 :: Utf8.encode [c], rest)

/-- Write a text with its escapes; `\c` ends all output, which the second part says. -/
def unescape (s : List Char) : Bytes × Bool :=
  match s with
  | [] => ([], false)
  | '\\' :: 'c' :: _ => ([], true)
  | '\\' :: rest =>
    let (bytes, after) := readEscape 1 rest
    if _h : after.length ≤ rest.length then
      let (more, ended) := unescape after
      (bytes ++ more, ended)
    else (bytes, false)
  | c :: rest =>
    let (more, ended) := unescape rest
    (Utf8.encode [c] ++ more, ended)
termination_by s.length

/-- What `echo` writes: its arguments with blanks between them and a line end, which `-n` leaves
out. -/
def echo (arguments : List (List Char)) : Bytes :=
  match arguments with
  | ['-', 'n'] :: rest => (unescape (Text.joinWith [' '] rest)).1
  | _ =>
    let (bytes, ended) := unescape (Text.joinWith [' '] arguments)
    if ended then bytes else bytes ++ [10]

/-! ## Formats -/

/-- What a conversion asks for: its flags, its sizes, and the letter of its kind. -/
structure Directive where
  flags : List Char
  width : Nat
  precision : Option Nat
  letter : Char

/-- What is printed, and what is said about the arguments. -/
structure Printed where
  bytes : Bytes := []
  complaints : List String := []
  /-- The arguments that are left. -/
  left : List (List Char) := []
  /-- Nothing more is printed. -/
  ended : Bool := false
  /-- A conversion is not known. -/
  failed : Bool := false

namespace Printed

/-- Put bytes in front of what is printed; all the rest stays. -/
def after (bytes : Bytes) (p : Printed) : Printed := { p with bytes := bytes ++ p.bytes }

end Printed

/-- Fill a text up to a width with blanks, which stand behind it if it is to be on the left. -/
def pad (left : Bool) (width : Nat) (bytes : Bytes) : Bytes :=
  let missing := List.replicate (width - bytes.length) (32 : UInt8)
  if left then bytes ++ missing else missing ++ bytes

/-- Digits of a number, at least so many: zeros are put in front. -/
def digits (least radix n : Nat) : List Char :=
  let digits := Nat.toDigits radix n
  List.replicate (least - digits.length) '0' ++ digits

/-- Write a number with what stands in front of its digits. Zeros fill the width only if no
precision is given. -/
def writeNumber (d : Directive) (front : List Char) (radix n : Nat) : Bytes :=
  let least := match d.precision with
    | some p => p
    | none =>
      if d.flags.contains '0' && !d.flags.contains '-' then d.width - front.length else 1
  let text := front ++ digits least radix n
  let text := if d.letter = 'X' then text.map Char.toUpper else text
  pad (d.flags.contains '-') d.width (Utf8.encode text)

/-- The number that an argument means, and what is said about it. A quote in front gives the code of
the character behind it. -/
def number (argument : List Char) : Int × List String :=
  let shown := String.ofList argument
  match argument, Arithmetic.integer? (Text.trimStart argument) with
  | [], _ => (0, [])
  | '\'' :: c :: _, _ => (c.toNat, [])
  | '"' :: c :: _, _ => (c.toNat, [])
  | _, none => (0, [shown ++ ": expected numeric value"])
  | _, some (n, []) =>
    if Arithmetic.clamp n = n then (n, [])
    else (Arithmetic.clamp n, [shown ++ ": Numerical result out of range"])
  | _, some (n, _) => (n, [shown ++ ": not completely converted"])

/-- What a conversion makes of an argument; `none` if it is not known. -/
def convert? (d : Directive) (argument : List Char) : Option Printed :=
  let text := fun (bytes : Bytes) => pad (d.flags.contains '-') d.width
    (match d.precision with
      | some p => bytes.take p
      | none => bytes)
  let (n, complaints) := number argument
  let signed := fun (_ : Unit) =>
    let sign := if n < 0 then ['-'] else if d.flags.contains '+' then ['+']
      else if d.flags.contains ' ' then [' '] else []
    some ⟨writeNumber d sign 10 n.natAbs, complaints, [], false, false⟩
  let unsigned := fun (front : List Char) (radix : Nat) =>
    let front := if d.flags.contains '#' then front else []
    some ⟨writeNumber d front radix (Arithmetic.bits n), complaints, [], false, false⟩
  match d.letter with
  | 's' => some ⟨text (Utf8.encode argument), [], [], false, false⟩
  | 'b' =>
    let (bytes, ended) := unescape argument
    some ⟨text bytes, [], [], ended, false⟩
  | 'c' => some ⟨text (Utf8.encode (argument.take 1)), [], [], false, false⟩
  | 'd' => signed ()
  | 'i' => signed ()
  | 'u' => unsigned [] 10
  | 'o' => unsigned ['0'] 8
  | 'x' => unsigned ['0', 'x'] 16
  | 'X' => unsigned ['0', 'x'] 16
  | _ => none

/-- Read a width or a precision, which a star takes from the arguments. -/
def readSize (s : List Char) (arguments : List (List Char)) :
    Option Nat × List Char × List (List Char) :=
  match s with
  | '*' :: rest => (some (number (arguments.head?.getD [])).1.toNat, rest, arguments.tail)
  | _ =>
    let size := s.takeWhile Char.isDigit
    (Text.digits? 10 size, s.drop size.length, arguments)

/-- Read a conversion after its percent sign; `none` if the format ends before its letter. -/
def readDirective (s : List Char) (arguments : List (List Char)) :
    Option (Directive × List Char × List (List Char)) :=
  let flags := s.takeWhile fun c => "-+ #0".toList.contains c
  let (width, s, arguments) := readSize (s.drop flags.length) arguments
  let (precision, s, arguments) := match s with
    | '.' :: s =>
      let (precision, rest) := readSize s arguments
      (some (precision.getD 0), rest)
    | _ => (none, s, arguments)
  match s with
  | letter :: rest => some (⟨flags, width.getD 0, precision, letter⟩, rest, arguments)
  | [] => none

/-- Fill a format once; a conversion that no argument is left for gets the empty text. -/
def fill (s : List Char) (arguments : List (List Char)) : Printed :=
  match s with
  | [] => { left := arguments }
  | '%' :: '%' :: rest => (fill rest arguments).after [37]
  | '%' :: spec =>
    match readDirective spec arguments with
    | none => { complaints := ["missing format character"], failed := true }
    | some (d, rest, arguments) =>
      match convert? d (arguments.head?.getD []) with
      | none =>
        { complaints := ["%" ++ String.ofList [d.letter] ++ ": invalid directive"], failed := true }
      | some here =>
        if here.ended then here
        else if _h : rest.length < spec.length then
          let more := fill rest arguments.tail
          { more with bytes := here.bytes ++ more.bytes,
                      complaints := here.complaints ++ more.complaints }
        else here
  | '\\' :: rest =>
    let (bytes, after) := readEscape 0 rest
    if _h : after.length ≤ rest.length then (fill after arguments).after bytes
    else { bytes := bytes }
  | c :: rest => (fill rest arguments).after (Utf8.encode [c])
termination_by s.length
decreasing_by all_goals simp_all <;> omega

/-- What `printf` writes: the format again and again while it uses up arguments. -/
def printf (format : List Char) (arguments : List (List Char)) : Printed :=
  let p := fill format arguments
  if _h : p.left.length < arguments.length ∧ p.left ≠ [] ∧ !p.ended ∧ !p.failed then
    -- a format that takes no argument is used once only
    let more := printf format p.left
    { more with bytes := p.bytes ++ more.bytes, complaints := p.complaints ++ more.complaints }
  else p
termination_by arguments.length
decreasing_by exact _h.1

end WireKeeper.Shell.Format
