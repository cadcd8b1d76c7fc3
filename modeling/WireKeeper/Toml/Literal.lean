import WireKeeper.Text.Basic
import WireKeeper.Toml.Item

/-! # TOML literals

The scalars that stand without quotes: booleans, integers, floats, dates and times. None of them
holds a blank, except that one may stand between a date and a time; so each is read from the
whole **token** of characters that a literal can have.

* `Literal.integer?`: decimal with a sign, or with one of the prefixes `0x`, `0o`, `0b`; within 64
  bits;
* `Literal.isFloat`: a fraction or an exponent is needed; too large a positive number is refused;
* `Literal.isDateTime`, `Literal.isTime`: the calendar counts, leap years included. -/

namespace WireKeeper.Toml.Literal

open Text (digitValue? valueOfDigits cutFirst)

/-- The characters of literals, of any kind: a token ends at the first other one, as at a comma or a
comment. -/
def isTokenChar (c : Char) : Bool :=
  c.isAlphanum || c == '_' || c == '+' || c == '-' || c == '.' || c == ':'

/-- The digits of a numeral in which single underscores may stand between digits; not at an end, nor
two in a row. -/
def digits? (radix : Nat) (s : List Char) : Option (List Nat) := do
  let runs := s.splitOn '_'
  if runs.any List.isEmpty then none
  else (runs.flatten).mapM (digitValue? radix)

/-- Split a sign off; the first part says whether it was a minus sign. -/
def sign : List Char → Bool × List Char
  | '-' :: rest => (true, rest)
  | '+' :: rest => (false, rest)
  | s => (false, s)

/-- The digits of a decimal numeral; zero alone may begin with a zero, so `007` is none. -/
def wholeDigits? (s : List Char) : Option (List Nat) :=
  if s.head? = some '0' && s ≠ ['0'] then none else digits? 10 s

/-- Keep a number that fits into 64 bits with a sign; any other is no integer of a document. -/
def inRange? (n : Int) : Option Int := 
  if -0x8000000000000000 ≤ n ∧ n < 0x8000000000000000 then some n else none

/-- Read an integer: decimal with an optional sign, or behind one of the prefixes `0x`, `0o` and
`0b`, which take no sign. -/
def integer? (s : List Char) : Option Int :=
  let radixed := fun (radix : Nat) (body : List Char) =>
    ((digits? radix body).map fun ds => (valueOfDigits radix ds : Int)).bind inRange?
  match s with
  | '0' :: 'x' :: body => radixed 16 body
  | '0' :: 'o' :: body => radixed 8 body
  | '0' :: 'b' :: body => radixed 2 body
  | _ => do
    let (negative, body) := sign s
    let n : Int := valueOfDigits 10 (← wholeDigits? body)
    inRange? (if negative then -n else n)

/-! ## Floats -/

/-- The least number that is rounded to infinity: half a step above the largest finite number of 64
bits. -/
def overflowBound : Nat := (Nat.pow 2 54 - 1) * Nat.pow 2 970

/-- Whether `mantissa * 10 ^ exponent` is rounded to infinity. Both cases first compare sizes, so
that no huge power is computed. -/
def overflows (mantissa : Nat) (exponent : Int) : Bool :=
  if mantissa = 0 then false
  else
    match exponent with
    | .ofNat e => 309 ≤ e || overflowBound ≤ mantissa * Nat.pow 10 e
    | .negSucc e =>
      let digits := (Nat.toDigits 10 mantissa).length
      -- fewer digits than places behind the point make a number below one
      e < digits && overflowBound * Nat.pow 10 (e + 1) ≤ mantissa

/-- Split at the letter of an exponent, `e` or `E`; `none` where there is no such letter. -/
def cutExponent (s : List Char) : List Char × Option (List Char) :=
  let isMark := fun c => c == 'e' || c == 'E'
  match s.dropWhile (!isMark ·) with
  | [] => (s, none)
  | _ :: exponent => (s.takeWhile (!isMark ·), some exponent)

/-- Read the exponent of a float, zero if there is none. It may have a sign and begin with zeros. -/
def exponent? : Option (List Char) → Option Int
  | none => some 0
  | some s => do
    let (negative, body) := sign s
    let n : Int := valueOfDigits 10 (← digits? 10 body)
    some (if negative then -n else n)

/-- Whether a token without a sign is a float: it has a fraction, an exponent or both, or is one of
the words `inf` and `nan`. Only a `negative` one may be too large. -/
def isUnsignedFloat (negative : Bool) (s : List Char) : Bool :=
  if s = ['i', 'n', 'f'] || s = ['n', 'a', 'n'] then true
  else
    let (front, exponent) := cutExponent s
    let (whole, fraction) := match cutFirst '.' front with
      | some (whole, fraction) => (whole, some fraction)
      | none => (front, none)
    let value := do
      let whole ← wholeDigits? whole
      let fraction ← match fraction with
        | some f => digits? 10 f
        | none => some []
      let e ← exponent? exponent
      some (valueOfDigits 10 (whole ++ fraction), e - fraction.length)
    match value with
    | some (mantissa, e) =>
      (fraction.isSome || exponent.isSome) && (negative || !overflows mantissa e)
    | none => false

/-- Whether a token is a float, with or without a sign in front. -/
def isFloat (s : List Char) : Bool :=
  let (negative, body) := sign s
  isUnsignedFloat negative body

/-! ## Dates and times -/

/-- A number of exactly `size` decimal digits, from `low` to `high`; blanks and underscores are no
digits. -/
def isNumber (size low high : Nat) (s : List Char) : Bool :=
  match s.mapM (digitValue? 10) with
  | some ds => ds.length == size && low ≤ valueOfDigits 10 ds && valueOfDigits 10 ds ≤ high
  | none => false

/-- Whether a year is a leap year: every fourth one, but of the full centuries only every fourth. -/
def isLeap (year : Nat) : Bool := year % 4 == 0 && (year % 100 != 0 || year % 400 == 0)

/-- The number of days of a month, counted from one; the year matters for the second only. -/
def daysOf (year month : Nat) : Nat :=
  if month = 2 then if isLeap year then 29 else 28
  else if month = 4 || month = 6 || month = 9 || month = 11 then 30
  else 31

/-- The value of decimal digits that are known to be some; anything else among them is left out. -/
def numberOf (s : List Char) : Nat := valueOfDigits 10 (s.filterMap (digitValue? 10))

/-- Whether a token is a date, such as `2024-02-29`, that the calendar has. -/
def isDate : List Char → Bool
  | [y₁, y₂, y₃, y₄, '-', m₁, m₂, '-', d₁, d₂] =>
    isNumber 4 0 9999 [y₁, y₂, y₃, y₄] && isNumber 2 1 12 [m₁, m₂] &&
      isNumber 2 1 (daysOf (numberOf [y₁, y₂, y₃, y₄]) (numberOf [m₁, m₂])) [d₁, d₂]
  | _ => false

/-- Whether a token is a fraction of a second, or empty. A full stop alone is none, and any number
of digits may follow it. -/
def isSecondFraction : List Char → Bool
  | [] => true
  | '.' :: ds => !ds.isEmpty && ds.all Char.isDigit
  | _ => false

/-- Whether a token is a time of day, such as `23:59:60`; a minute may have a leap second. -/
def isTime : List Char → Bool
  | h₁ :: h₂ :: ':' :: m₁ :: m₂ :: ':' :: s₁ :: s₂ :: fraction =>
    isNumber 2 0 23 [h₁, h₂] && isNumber 2 0 59 [m₁, m₂] && isNumber 2 0 60 [s₁, s₂] &&
      isSecondFraction fraction
  | _ => false

/-- Whether a token is an offset from universal time, or empty: `Z` of either case, or hours and
minutes with a sign. -/
def isOffset : List Char → Bool
  | [] => true
  | ['Z'] => true
  | ['z'] => true
  | [sign, h₁, h₂, ':', m₁, m₂] =>
    (sign == '+' || sign == '-') && isNumber 2 0 23 [h₁, h₂] && isNumber 2 0 59 [m₁, m₂]
  | _ => false

/-- Whether a token is a time with or without an offset, which begins behind the last digit of the
time. -/
def isOffsetTime (s : List Char) : Bool :=
  let inTime := fun (c : Char) => c.isDigit || c == ':' || c == '.'
  isTime (s.takeWhile inTime) && isOffset (s.dropWhile inTime)

/-- Whether a token is a date with a time, the two joined by a `T` of either case. -/
def isDateTime (s : List Char) : Bool :=
  match s.drop 10 with
  | 'T' :: time => isDate (s.take 10) && isOffsetTime time
  | 't' :: time => isDate (s.take 10) && isOffsetTime time
  | _ => false

/-- Read a token: a word for a truth value, an integer, a float, or a date or time; `none` for
anything else. -/
def ofToken? (s : List Char) : Option Item :=
  if s = ['t', 'r', 'u', 'e'] then some (.boolean true)
  else if s = ['f', 'a', 'l', 's', 'e'] then some (.boolean false)
  else
    match integer? s with
    | some n => some (.integer n)
    | none =>
      if isFloat s then some .float
      else if isDate s || isDateTime s || isTime s then some .dateTime
      else none

/-- Read the literal at the start of a text. One blank may stand between a date and a time, which is
the only one that a literal may hold. -/
def read (s : List Char) : Option (Item × List Char) :=
  let token := s.takeWhile isTokenChar
  let rest := s.dropWhile isTokenChar
  match rest with
  | ' ' :: more =>
    if isDate token && isOffsetTime (more.takeWhile isTokenChar) then
      some (.dateTime, more.dropWhile isTokenChar)
    else (ofToken? token).map fun item => (item, rest)
  | _ => (ofToken? token).map fun item => (item, rest)

end WireKeeper.Toml.Literal
