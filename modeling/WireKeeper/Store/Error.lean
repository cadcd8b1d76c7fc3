import WireKeeper.Bytes.Utf8
import WireKeeper.Net.Address
import WireKeeper.Text.Basic

/-! # What can go wrong in the store

`StoreError` names the causes; `StoreError.message` gives their wording. A **subject** is what a row
is about, a **corruption** why a stored value is no record. -/

namespace WireKeeper

/-- What a row is about, as errors name it. -/
inductive Subject where
  | publicKey
  | peer (name : String)
  | serverIdentity
  | other (text : String)
  deriving DecidableEq, Repr

namespace Subject

/-- How a subject is named in messages; the name of a peer is not quoted. -/
def text : Subject → String
  | .publicKey => "public key"
  | .peer name => "peer " ++ name
  | .serverIdentity => "server identity"
  | .other text => text

/-- The subject that a text names, which is `other` for every text that `text` gives to no other
subject. -/
def ofText (s : String) : Subject :=
  if s = "public key" then .publicKey
  else if s = "server identity" then .serverIdentity
  else
    match Text.dropStart? "peer ".toList s.toList with
    | some name => .peer (String.ofList name)
    | none => .other s

end Subject

/-- Why a stored value is no record although it could be decoded, or its key is none. -/
inductive Corruption where
  /-- A value without its header. -/
  | emptyValue
  /-- The name of a peer that is no text. -/
  | nameNotText (reason : Utf8.Error)
  /-- A key of another size than keys have. -/
  | keySize (what : String) (size : Nat)
  /-- A keepalive interval that is too long or negative. -/
  | keepalive (value : Int)
  /-- Bytes that are no address or net. -/
  | address (reason : AddressError)
  | other (text : String)
  deriving DecidableEq, Repr

/-- The wording of a corruption, without what it happened to. -/
def Corruption.message : Corruption → String
  | .emptyValue => "empty value"
  | .nameNotText reason => s!"peer name is not utf-8: {reason.message}"
  | .keySize what size => s!"{what} has {size} bytes"
  | .keepalive value => s!"keepalive {value} out of range"
  | .address reason => reason.message
  | .other text => text

/-- Why an operation on the store fails. What the database itself says is not kept: it is only known
to refuse. -/
inductive StoreError where
  /-- The database refuses. -/
  | database
  | notFound (what : Subject)
  | alreadyExists (what : Subject)
  /-- A change inside a view. -/
  | readOnly
  | unsupportedVersion (version : Nat)
  | corrupted (reason : Corruption)
  /-- A payload that is no encoded record. -/
  | undecodable
  /-- Reading a record broke off in the middle. This is no answer that anybody gets: it passes
  through all layers up to whoever gave the order, with what was begun given up on the way. -/
  | brokenOff
  | internal (reason : String)
  deriving DecidableEq, Repr

/-- The wording of an error. That of `brokenOff` is no answer of the store, but what is seen of it
from outside. -/
def StoreError.message : StoreError → String
  | .database => "Database error"
  | .notFound what => s!"Not found: {what.text}"
  | .alreadyExists what => s!"Already exists: {what.text}"
  | .readOnly => "write attempted in a read-only transaction"
  | .unsupportedVersion version => s!"unsupported record version {version}"
  | .corrupted reason => s!"corrupted record: {reason.message}"
  | .undecodable => "Decoding error"
  | .brokenOff => "attempt to add with overflow"
  | .internal reason => s!"Internal: {reason}"

end WireKeeper
