import WireKeeper.Proofs.Basic
import WireKeeper.Record.Codec

/-! # Why a stored value is not read

A stored value that is no record is refused for what is wrong with its bytes, or the reading of it
breaks off. It is never said that something is missing or already there, nor that the database
refuses: those are said of a row.

* `StoreError.Refusal`, `StoreError.OfBytes`: what can be wrong with bytes;
* `Record.OnlyErrors`: a reader and the errors it can end in, with `OnlyErrors.bind` and
  `OnlyErrors.mapM` for readers that are made of others;
* `PeerIdentity.decode_onlyOfBytes`: the record of a peer. -/

namespace WireKeeper

/-- The errors that say of the bytes of a value that they are no record. -/
def StoreError.Refusal : StoreError → Prop
  | .unsupportedVersion _ | .corrupted _ | .undecodable => True
  | .database | .notFound _ | .alreadyExists _ | .readOnly | .brokenOff | .internal _ => False

/-- The errors that come of the bytes of a value: a refusal, or that the reading broke off. -/
def StoreError.OfBytes (e : StoreError) : Prop := e.Refusal ∨ e = .brokenOff

namespace Record

variable {α β : Type} {P Q : StoreError → Prop}

/-- A reader fails with errors of one kind at most. -/
def OnlyErrors (P : StoreError → Prop) (x : Except StoreError α) : Prop := ∀ e, x = .error e → P e

/-- A reader that fails with errors of one kind fails with those of a wider kind. -/
theorem OnlyErrors.mono {x : Except StoreError α} (h : OnlyErrors P x) (hPQ : ∀ e, P e → Q e) :
    OnlyErrors Q x := fun e he => hPQ e (h e he)

/-- `x >>= f`: one reader after another fails as one of the two does. -/
theorem OnlyErrors.bind {x : Except StoreError α} {f : α → Except StoreError β}
    (hx : OnlyErrors P x) (hf : ∀ a, OnlyErrors P (f a)) : OnlyErrors P (x >>= f) := by
  intro e h
  rcases bind_eq_error.1 h with h | ⟨a, -, h⟩
  · exact hx e h
  · exact hf a e h

/-- What is there is read: `pure a` fails with no error, so with those of any kind. -/
theorem onlyErrors_pure (a : α) : OnlyErrors P (pure a) := fun _ h => nomatch h

/-- `l.mapM f`: a reader of each item of a list fails as it does for one of them. -/
theorem OnlyErrors.mapM {f : α → Except StoreError β} (hf : ∀ a, OnlyErrors P (f a))
    (l : List α) : OnlyErrors P (l.mapM f) := by
  induction l with
  | nil => exact onlyErrors_pure []
  | cons a as ih =>
    rw [List.mapM_cons]
    exact (hf a).bind fun b => ih.bind fun bs => onlyErrors_pure (b :: bs)

/-- A reader whose faults are given other names fails with what they are named. -/
theorem onlyErrors_mapError {ε : Type} (x : Except ε α) {f : ε → StoreError} (hf : ∀ e, P (f e)) :
    OnlyErrors P (x.mapError f) := by
  intro e h
  obtain ⟨e', -, rfl⟩ := mapError_eq_error.1 h
  exact hf e'

/-- What is refused is refused for what is wrong: `.error e` fails with errors of a kind if `e` is
of it. -/
theorem onlyErrors_error {e : StoreError} (he : P e) :
    OnlyErrors P (.error e : Except StoreError α) := by
  rintro e' ⟨⟩
  exact he

/-- A reader that only refuses does not break off. -/
theorem OnlyErrors.ne_brokenOff {x : Except StoreError α} (h : OnlyErrors StoreError.Refusal x) :
    x ≠ .error .brokenOff := fun hx => h _ hx

/-! ## The readers

All but the one of nets only refuse. -/

/-- A value is refused that is empty or of another version, and for no other reason. -/
theorem refusal_unframe (value : Bytes) : OnlyErrors StoreError.Refusal (unframe value) := by
  cases value with
  | nil => exact onlyErrors_error trivial
  | cons b payload =>
    show OnlyErrors _ (if (Header.ofByte b).version = 1 then .ok payload else .error _)
    split
    · exact onlyErrors_pure payload
    · exact onlyErrors_error trivial

/-- A payload is refused that does not begin with an item, and for no other reason. -/
theorem refusal_readPayload (payload : Bytes) :
    OnlyErrors StoreError.Refusal (readPayload payload) := by
  rw [readPayload]
  split
  · exact onlyErrors_pure _
  · exact onlyErrors_error trivial

/-- An item is refused that has another form than the one that is expected. -/
theorem refusal_expect (read : MessagePack.Value → Option α) (v : MessagePack.Value) :
    OnlyErrors StoreError.Refusal (expect read v) := by
  rw [expect]
  split
  · exact onlyErrors_pure _
  · exact onlyErrors_error trivial

/-- Bytes are refused that are no key, and the error says which key they should be. -/
theorem refusal_readKey (what : String) (bytes : Bytes) :
    OnlyErrors StoreError.Refusal (readKey what bytes) := by
  rw [readKey]
  split
  · exact onlyErrors_pure _
  · exact onlyErrors_error trivial

/-- A number of seconds is refused that is too long or negative; none at all is read. -/
theorem refusal_readKeepalive (i : Option Int) :
    OnlyErrors StoreError.Refusal (readKeepalive i) := by
  cases i with
  | none => exact onlyErrors_pure none
  | some i =>
    rw [readKeepalive]
    split
    · exact onlyErrors_pure _
    · exact onlyErrors_error trivial

/-- Bytes are refused that are no address, as there is none of their length. -/
theorem refusal_readAddress (raw : Bytes) : OnlyErrors StoreError.Refusal (readAddress raw) :=
  onlyErrors_mapError _ fun _ => trivial

/-- Raw bytes that are no net are refused, or the reading of them breaks off at a mask with too many
ones. -/
theorem onlyOfBytes_readNet (raw : Bytes × Bytes) :
    OnlyErrors StoreError.OfBytes (readNet raw) := by
  refine onlyErrors_mapError _ fun e => ?_
  cases e with
  | refused reason => exact .inl trivial
  | overflow => exact .inr rfl

/-- The reading of raw bytes breaks off exactly if counting the ones of the mask overflows. -/
theorem readNet_eq_brokenOff_iff {raw : Bytes × Bytes} :
    readNet raw = .error .brokenOff ↔ Net.ofRaw raw.1 raw.2 = .error .overflow := by
  rw [readNet, mapError_eq_error]
  constructor
  · rintro ⟨e, he, hfault⟩
    cases e with
    | refused reason => cases hfault
    | overflow => exact he
  · exact fun h => ⟨.overflow, h, rfl⟩

end Record

open Record

/-- A peer that is not read has something wrong with its bytes, or reading them breaks off: no other
error comes of them. -/
theorem PeerIdentity.decode_onlyOfBytes (name : String) (value : Bytes) :
    OnlyErrors StoreError.OfBytes (decode name value) := by
  have hrefusal : ∀ e : StoreError, e.Refusal → e.OfBytes := fun _ => .inl
  have hraw : ∀ raw, OnlyErrors StoreError.OfBytes (ofRaw name raw) := fun raw =>
    ((OnlyErrors.mapM refusal_readAddress _).mono hrefusal).bind fun _ =>
      (OnlyErrors.mapM onlyOfBytes_readNet _).bind fun _ =>
        ((refusal_readKeepalive _).mono hrefusal).bind fun _ =>
          (onlyOfBytes_readNet _).bind fun _ =>
            ((refusal_readKey _ _).mono hrefusal).bind fun _ =>
              ((refusal_readKey _ _).mono hrefusal).bind fun _ => onlyErrors_pure _
  exact ((refusal_unframe value).mono hrefusal).bind fun payload =>
    ((refusal_readPayload payload).mono hrefusal).bind fun _ =>
      ((refusal_expect raw? _).mono hrefusal).bind fun raw => hraw raw

end WireKeeper
