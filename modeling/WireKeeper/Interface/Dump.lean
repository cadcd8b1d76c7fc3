import WireKeeper.Bytes.Utf8
import WireKeeper.Interface.Error
import WireKeeper.Text.Basic

/-! # Status dumps

The status tool prints a first line about the interface and then, for each peer, eight fields: its
public key, three others, the time of the last handshake, the bytes received and sent, and one more.
Fields are separated by spaces, tabs and line ends; how they are spread over lines does not matter.

`Dump.parse` scans the text once, field by field. -/

namespace WireKeeper

/-- The traffic of a peer, as its record in a dump says. -/
structure PeerStats where
  received : Nat := 0
  sent : Nat := 0
  /-- The time of the last handshake in seconds, once there was one. -/
  handshake : Option Nat := none
  deriving DecidableEq, Repr

/-- The traffic of several peers, each at most once, which `insert` looks after. -/
abbrev StatsMap := List (PublicKey × PeerStats)

namespace StatsMap

/-- Set the traffic of a peer; what was known of it before is dropped. -/
def insert (m : StatsMap) (key : PublicKey) (stats : PeerStats) : StatsMap :=
  (key, stats) :: m.filter fun e => e.1 ≠ key

/-- The traffic of a peer, or `none` if nothing is known of it. -/
def get? (m : StatsMap) (key : PublicKey) : Option PeerStats := List.lookup key m

/-- The entries in the order of the texts of their keys, which is not the order of their bytes. -/
def inKeyOrder (m : StatsMap) : List (PublicKey × PeerStats) :=
  m.mergeSort fun a b => decide (a.1.toBase64 ≤ b.1.toBase64)

/-- In the empty map nothing is known of any peer: `get? [] key = none`. -/
@[simp] theorem get?_nil (key : PublicKey) : get? [] key = none := rfl

end StatsMap

namespace Dump

/-- The number of fields of a peer, of which four are read. -/
def fieldsPerPeer : Nat := 8

/-- The bytes between fields: space, tab, line feed and carriage return. None of them is part of a
longer character. -/
def isSeparator (b : UInt8) : Bool := b == 0x20 || b == 0x09 || b == 0x0A || b == 0x0D

/-- The latest second that has a date, at the end of the last year that a date can have. -/
def lastSecond : Nat := 8210266876799

/-- Read a public key; what it accepts is said by `readKey_eq_ok`. -/
def readKey (field : List Char) : Except DumpFault PublicKey :=
  (PublicKey.parse (String.ofList field)).mapError (.badKey (String.ofList field))

/-- Read a counter of 64 bits, of which `what` says in the error what it counts; see
`readCounter_eq_ok`. -/
def readCounter (what : String) (field : List Char) : Except DumpFault Nat :=
  match Text.decimal? 0x10000000000000000 field with
  | some n => .ok n
  | none => .error (.notNumber what (String.ofList field))

/-- Read the time of a handshake, a number of 63 bits that has a date; zero means none yet. See
`readHandshake_eq_ok`. -/
def readHandshake (field : List Char) : Except DumpFault (Option Nat) :=
  match readCounter "handshake" field with
  | .error e => .error e
  -- zero is a time like any other in the text, but the tool writes it for a peer that was never
  -- heard of
  | .ok 0 => .ok none
  | .ok n =>
    if n < 0x8000000000000000 ∧ n ≤ lastSecond then .ok (some n) else .error (.lateHandshake n)

/-- How far a scan has come: what it knows of the record at hand, and the records behind it. -/
structure Scan where
  /-- The number of fields read so far. -/
  fields : Nat := 0
  /-- The key of the record at hand. -/
  key : Option PublicKey := none
  /-- The traffic of the record at hand. -/
  stats : PeerStats := {}
  peers : StatsMap := []

namespace Scan

/-- Take a field into the record at hand, by its place there, which counts from zero. Four of the
eight places say nothing. -/
def takeAt (s : Scan) (field : List Char) : (place : Nat) → Except DumpFault Scan
  | 0 => (readKey field).map fun key => { s with key := some key }
  | 4 => (readHandshake field).map fun t => { s with stats := { s.stats with handshake := t } }
  | 5 =>
    (readCounter "received bytes" field).map fun n =>
      { s with stats := { s.stats with received := n } }
  | 6 =>
    (readCounter "sent bytes" field).map fun n => { s with stats := { s.stats with sent := n } }
  | _ => .ok s

/-- Take the next field, whose place in its record is the number of fields so far, modulo eight. -/
def take (s : Scan) (field : List Char) : Except DumpFault Scan :=
  s.takeAt field (s.fields % fieldsPerPeer)

/-- Put the record at hand away and begin another one. A later record of a peer replaces an earlier
one. -/
def flush (s : Scan) : Scan :=
  match s.key with
  | some key => { fields := s.fields, peers := s.peers.insert key s.stats }
  | none => { fields := s.fields, peers := s.peers }

/-- Count a field; the last one of a record ends it and puts it away. -/
def advance (s : Scan) : Scan :=
  let s := { s with fields := s.fields + 1 }
  if s.fields % fieldsPerPeer = 0 then s.flush else s

/-- The peers at the end of the text, or an error if it ends inside a record. -/
def finish (s : Scan) : Except DumpFault StatsMap :=
  if s.fields % fieldsPerPeer = 0 then .ok s.peers
  else .error (.truncated (s.fields % fieldsPerPeer))

end Scan

/-- The first position from `pos` on whose byte fails a test, or the end, if there is none. -/
def skipWhile (test : UInt8 → Bool) (bytes : Array UInt8) (pos : Nat) : Nat :=
  if h : pos < bytes.size then
    if test bytes[pos] then skipWhile test bytes (pos + 1) else pos
  else pos
termination_by bytes.size - pos

/-- `pos ≤ skipWhile test bytes pos`: skipping goes forward, or stays where it is. -/
theorem le_skipWhile (test : UInt8 → Bool) (bytes : Array UInt8) (pos : Nat) :
    pos ≤ skipWhile test bytes pos := by
  fun_induction skipWhile test bytes pos with
  | case1 pos h htest ih => omega
  | case2 | case3 => exact Nat.le_refl _

/-- A byte that passes the test is skipped, so that skipping then goes forward by at least one: `pos
< skipWhile test bytes pos`. -/
theorem lt_skipWhile {test : UInt8 → Bool} {bytes : Array UInt8} {pos : Nat}
    (h : pos < bytes.size) (htest : test bytes[pos] = true) : pos < skipWhile test bytes pos := by
  rw [skipWhile, dif_pos h, if_pos htest]
  exact le_skipWhile test bytes (pos + 1)

/-- Where skipping ends before the end, the test fails: the byte at `skipWhile test bytes pos` is
the first one that it does not pass. -/
theorem skipWhile_stops {test : UInt8 → Bool} {bytes : Array UInt8} {pos : Nat}
    (h : skipWhile test bytes pos < bytes.size) :
    test bytes[skipWhile test bytes pos] = false := by
  fun_induction skipWhile test bytes pos with
  | case1 pos hpos htest ih => exact ih h
  | case2 pos hpos htest => exact Bool.not_eq_true _ ▸ htest
  | case3 pos hpos => exact absurd h hpos

/-- Scan the bytes of a text from a position to the end: separators are skipped, then a field is cut
out and taken, and so on. A cut inside a character would be an error of its own; there never is one,
as `parse_reading` says. -/
def scanFrom (bytes : Array UInt8) (pos : Nat) (s : Scan) : Except DumpFault StatsMap :=
  let start := skipWhile isSeparator bytes pos
  if _h : start < bytes.size then
    let stop := skipWhile (!isSeparator ·) bytes start
    match Utf8.slice? bytes start stop with
    | none => .error (.insideCharacter start stop)
    | some field =>
      match s.take field with
      | .error e => .error e
      | .ok s => scanFrom bytes stop s.advance
  else s.finish
termination_by bytes.size - pos
decreasing_by
  -- a field begins where it is not a separator that stands
  have hstart : pos ≤ start := le_skipWhile isSeparator bytes pos
  have hstop : start < stop := lt_skipWhile _h (congrArg not (skipWhile_stops _h))
  show bytes.size - stop < bytes.size - pos
  omega

/-- Read a dump; its first line, which is about the interface itself, does not count. A text of one
line says nothing of any peer. -/
def parse (s : String) : Except DumpFault StatsMap :=
  match Text.cutFirst '\n' s.toList with
  | none => .ok []
  | some (_, body) => scanFrom (Utf8.encode body).toArray 0 {}

end Dump

end WireKeeper
