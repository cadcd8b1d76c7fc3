import WireKeeper.Store.Error

/-! # The header of a stored value

Every stored value begins with one byte: the lower half holds the **version** less one, the bit
above it marks a **collision**, and the three highest bits are free.

* `Header.ofByte`, `Header.toByte`: the header and its byte;
* `split`: a stored value as header and payload. -/

namespace WireKeeper.Record

/-- The header of a stored value. Only values of version one are written, and a collision is never
looked at. -/
structure Header where
  /-- The version less one. -/
  level : Fin 16
  collision : Bool
  deriving DecidableEq, Repr

namespace Header

/-- The version, from one to sixteen, as four bits can tell. -/
def version (h : Header) : Nat := h.level.val + 1

/-- A header with a version, unless that does not fit into four bits. -/
def make (version : Nat) (collision : Bool) : Except StoreError Header :=
  if h : 1 ≤ version ∧ version ≤ 16 then .ok ⟨⟨version - 1, by omega⟩, collision⟩
  else .error (.unsupportedVersion version)

/-- The header of version one, without a collision, which every value gets. -/
def current : Header := ⟨0, false⟩

/-- The byte of a header; its three highest bits are zero. -/
def toByte (h : Header) : UInt8 := UInt8.ofNat (h.level.val + if h.collision then 16 else 0)

/-- The header in a byte, whatever its three highest bits are. -/
def ofByte (b : UInt8) : Header :=
  ⟨⟨b.toNat % 16, Nat.mod_lt _ (by decide)⟩, b.toNat / 16 % 2 == 1⟩

/-- `ofByte h.toByte = h`: a header is what its byte says. -/
@[simp] theorem ofByte_toByte (h : Header) : ofByte h.toByte = h := by
  obtain ⟨level, collision⟩ := h
  revert level collision
  decide

/-- The version that is written is the one that is read: `current.version = 1`. -/
@[simp] theorem version_current : current.version = 1 := rfl

end Header

/-- The header and the payload of a stored value; an empty value has neither. -/
def split : Bytes → Except StoreError (Header × Bytes)
  | [] => .error (.corrupted .emptyValue)
  | b :: payload => .ok (Header.ofByte b, payload)

/-- A stored value of version one: its header and the payload. -/
def frame (payload : Bytes) : Bytes := Header.current.toByte :: payload

/-- The payload of a stored value, which must be of version one; the error names the
version it has. -/
def unframe (value : Bytes) : Except StoreError Bytes :=
  match split value with
  | .error e => .error e
  | .ok (header, payload) =>
    if header.version = 1 then .ok payload else .error (.unsupportedVersion header.version)

/-- `unframe (frame payload) = .ok payload`: what was framed is read back, whatever it is. -/
@[simp] theorem unframe_frame (payload : Bytes) : unframe (frame payload) = .ok payload := by
  simp [unframe, frame, split]

end WireKeeper.Record
