import WireKeeper.Shell.Token
import WireKeeper.Text.Basic

/-! # Arithmetic expressions

Whole numbers of 64 bits, variables and the usual operators, read by precedence. Comparisons give
one or zero. A number is octal after a zero and hexadecimal after `0x`.

`Arithmetic.eval` gives the value of an expression, or why it has none. -/

namespace WireKeeper.Shell.Arithmetic

/-- Why an expression has no value; the first thing that is wrong with it counts. -/
inductive Fault where
  /-- There is no operand where one should be. -/
  | noOperand
  /-- Something is left over. -/
  | noEnd
  | divisionByZero
  /-- A variable that holds no number. -/
  | notNumber (text : List Char)
  deriving DecidableEq, Repr

/-- What is said about an expression without a value, which is shown as a whole. -/
def Fault.message (expression : List Char) : Fault → String
  | notNumber text => "Illegal number: " ++ String.ofList text
  | other =>
    let reason := match other with
      | noOperand => "expecting primary"
      | noEnd => "expecting EOF"
      | _ => "division by zero"
    s!"arithmetic expression: {reason}: " ++ "\"" ++ String.ofList expression ++ "\""

/-- A token of an expression; a name is replaced by its number while it is read. -/
inductive Symbol where
  | number (n : Int)
  | operator (text : String)
  /-- A character that is part of no expression. -/
  | unknown
  deriving Repr, DecidableEq

/-- The operators, longer ones first, so that the longest one that fits is found first. -/
def operators : List String :=
  ["==", "!=", "<=", ">=", "&&", "||", "<<", ">>", "+", "-", "*", "/", "%", "<", ">", "!", "~",
    "(", ")", "&", "|", "^"]

/-- How tightly a binary operator binds; `none` for a sign that joins nothing. -/
def precedence? : String → Option Nat
  | "||" => some 1
  | "&&" => some 2
  | "|" => some 3
  | "^" => some 4
  | "&" => some 5
  | "==" => some 6
  | "!=" => some 6
  | "<" => some 7
  | ">" => some 7
  | "<=" => some 7
  | ">=" => some 7
  | "<<" => some 8
  | ">>" => some 8
  | "+" => some 9
  | "-" => some 9
  | "*" => some 10
  | "/" => some 10
  | "%" => some 10
  | _ => none

/-- One for a true statement, and zero for a false one. -/
def ofBool (b : Bool) : Int := if b then 1 else 0

/-- The value of 64 bits that a number means, which goes around at both ends. -/
def wrap (n : Int) : Int := n.bmod 0x10000000000000000

/-- A number as the natural number with the same 64 bits, for the operators that work bit by bit. -/
def bits (n : Int) : Nat := (n % 0x10000000000000000).toNat

/-- The value of a binary operator. Both operands are known, so neither `||` nor `&&` leaves one
out. -/
def apply (op : String) (a b : Int) : Except Fault Int :=
  let shift : Int := Nat.pow 2 (bits b % 64)
  let quotient := fun v => if b = 0 then .error .divisionByZero else .ok (wrap v)
  match op with
  | "||" => .ok (ofBool (a != 0 || b != 0))
  | "&&" => .ok (ofBool (a != 0 && b != 0))
  | "==" => .ok (ofBool (a == b))
  | "!=" => .ok (ofBool (a != b))
  | "<" => .ok (ofBool (a < b))
  | ">" => .ok (ofBool (a > b))
  | "<=" => .ok (ofBool (a ≤ b))
  | ">=" => .ok (ofBool (a ≥ b))
  | "<<" => .ok (wrap (a * shift))
  | ">>" => .ok (a.fdiv shift)
  | "+" => .ok (wrap (a + b))
  | "-" => .ok (wrap (a - b))
  | "*" => .ok (wrap (a * b))
  | "/" => quotient (a.tdiv b)
  | "%" => quotient (a.tmod b)
  | "&" => .ok (wrap (Nat.land (bits a) (bits b)))
  | "|" => .ok (wrap (Nat.lor (bits a) (bits b)))
  | "^" => .ok (wrap (Nat.xor (bits a) (bits b)))
  | _ => .error .noEnd

/-- The digits at the start of a text that has some, and what is left. -/
def digits? (radix : Nat) (s : List Char) : Option (Nat × List Char) :=
  let isDigit := fun c => (Text.digitValue? radix c).isSome
  let digits := s.takeWhile isDigit
  if digits.isEmpty then none
  else some (Text.valueOfDigits radix (digits.filterMap (Text.digitValue? radix)),
    s.drop digits.length)

/-- Read a natural number in the radix that its start tells: `0x` for sixteen, `0` for eight, and
else ten. -/
def natural? (s : List Char) : Option (Nat × List Char) :=
  match s with
  | '0' :: x :: rest =>
    let octal := digits? 8 s
    if x = 'x' || x = 'X' then digits? 16 rest <|> octal else octal
  | _ => digits? 10 s

/-- Read a whole number with an optional sign; gives what is left, which need not be empty. -/
def integer? (s : List Char) : Option (Int × List Char) :=
  match s with
  | '-' :: rest => (natural? rest).map fun (n, rest) => (-(n : Int), rest)
  | '+' :: rest => (natural? rest).map fun (n, rest) => ((n : Int), rest)
  | _ => (natural? s).map fun (n, rest) => ((n : Int), rest)

/-- The decimal number that a whole text is; zeros in front do not make it octal. -/
def decimal? (s : List Char) : Option Int :=
  match s with
  | '-' :: rest => (Text.digits? 10 rest).map fun n => -(n : Int)
  | '+' :: rest => (Text.digits? 10 rest).map fun n => (n : Int)
  | _ => (Text.digits? 10 s).map fun n => (n : Int)

/-- A number, at most the largest of 64 bits with a sign. -/
def clamp (n : Int) : Int := min n 0x7FFFFFFFFFFFFFFF

/-- The value of a variable; one that is not set counts as zero, and one that holds no number is an
error. -/
def ofVariable (text : List Char) : Except Fault Int :=
  match text, integer? text with
  | [], _ => .ok 0
  | _, some (n, []) => .ok (clamp n)
  | _, _ => .error (.notNumber text)

/-- The symbols of an expression; `value` says what variables hold. -/
def symbols (value : List Char → List Char) (s : List Char) : Except Fault (List Symbol) :=
  match s with
  | [] => .ok []
  | c :: rest =>
    let goOn := fun (symbol : Symbol) (left : List Char) =>
      if _h : left.length < (c :: rest).length then
        (symbols value left).map (symbol :: ·)
      else .error .noEnd
    if c == ' ' || c == '\t' || c == '\n' then symbols value rest
    else if c.isDigit then
      match natural? s with
      | some (n, left) => goOn (.number (clamp n)) left
      | none => .error .noOperand
    else if isNameChar c then
      match ofVariable (value (s.takeWhile isNameChar)) with
      | .ok n => goOn (.number n) (s.dropWhile isNameChar)
      | .error e => .error e
    else
      match operators.find? fun op => Text.startsWith op.toList s with
      | some op => goOn (.operator op) (s.drop op.length)
      | none => goOn .unknown rest
termination_by s.length
decreasing_by all_goals simp_all

mutual

/-- Read operators that bind at least so tightly, and what they join. The first argument is a
budget, which `eval` makes large enough. -/
def read : Nat → Nat → List Symbol → Except Fault (Int × List Symbol)
  | 0, _, _ => .error .noEnd
  | n + 1, least, ts => do
    let (a, ts) ← readOperand n ts
    readAfter n least a ts

/-- Go on after an operand: an operator that binds tightly enough joins it with the next one. -/
def readAfter : Nat → Nat → Int → List Symbol → Except Fault (Int × List Symbol)
  | 0, _, _, _ => .error .noEnd
  | n + 1, least, a, ts =>
    match ts with
    | .operator op :: rest =>
      match precedence? op with
      | none => .ok (a, ts)
      | some p =>
        if p < least then .ok (a, ts)
        else do
          -- operators of one precedence join from the left
          let (b, ts) ← read n (p + 1) rest
          let c ← apply op a b
          readAfter n least c ts
    | _ => .ok (a, ts)

/-- Read a number, an expression in parentheses or an operand with its sign. -/
def readOperand : Nat → List Symbol → Except Fault (Int × List Symbol)
  | 0, _ => .error .noEnd
  | n + 1, ts =>
    match ts with
    | .number v :: rest => .ok (v, rest)
    | .operator "-" :: rest => (readOperand n rest).map fun (v, ts) => (wrap (-v), ts)
    | .operator "+" :: rest => readOperand n rest
    | .operator "!" :: rest => (readOperand n rest).map fun (v, ts) => (ofBool (v == 0), ts)
    | .operator "~" :: rest => (readOperand n rest).map fun (v, ts) => (-v - 1, ts)
    | .operator "(" :: rest => do
      let (v, ts) ← read n 0 rest
      match ts with
      | .operator ")" :: ts => return (v, ts)
      | _ => .error .noEnd
    | _ => .error .noOperand

end

/-- The value of an expression, or why it has none. Each symbol spends at most four steps of the
budget. -/
def eval (value : List Char → List Char) (s : List Char) : Except Fault Int := do
  let ts ← symbols value s
  let (v, left) ← read (4 * ts.length + 4) 0 ts
  if left.isEmpty then return v else .error .noEnd

end WireKeeper.Shell.Arithmetic
