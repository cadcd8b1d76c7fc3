import WireKeeper.Key
import WireKeeper.MessagePack.Value
import WireKeeper.MessagePack.Writer
import WireKeeper.Net.Subnet
import WireKeeper.Record.Header

/-! # Records

What the store keeps, and how a record becomes a stored value and back.

* a `Credential`, kept under the blob of an administrator's key;
* a `PeerIdentity`, kept under the name of the peer;
* a `ServerIdentity`, kept once.

A value is a header byte and an array of the fields. Addresses are kept as raw bytes, nets as the
bytes of address and mask. Reading also takes a map of the fields. -/

namespace WireKeeper

open MessagePack (Value writeText writeBinary writeArray writeNatural writeOptional)

/-- An administrator, known by the blob of a key. The comment tells administrators apart for those
who read it. -/
structure Credential where
  key : Bytes
  comment : String
  deriving DecidableEq

/-- What is kept of a peer: all that its interface file is made of, but what the server and the
settings know. -/
structure PeerIdentity where
  name : String
  address : Net
  privateKey : PrivateKey
  publicKey : PublicKey
  dns : List Address
  allowedIPs : List Net
  persistentKeepalive : Option UInt16
  deriving DecidableEq

/-- What is kept of the server: its key, from which its public key follows. -/
structure ServerIdentity where
  privateKey : PrivateKey
  deriving DecidableEq

namespace Record

/-- How deep the items of a record may nest; records have at most three levels, so this only bounds
what is skipped. -/
def maxDepth : Nat := 1024

/-- The item at the start of a payload; what follows it does not count, and a payload without an
item is undecodable. -/
def readPayload (payload : Bytes) : Except StoreError Value :=
  match Value.read maxDepth payload with
  | some (v, _) => .ok v
  | none => .error .undecodable

/-- A value that must be of a form; one that `read` refuses is undecodable. -/
def expect {α : Type} (read : Value → Option α) (v : Value) : Except StoreError α :=
  match read v with
  | some a => .ok a
  | none => .error .undecodable

/-- Bytes that must be a key; `what` names it in the error, with the number of bytes it has. -/
def readKey (what : String) (bytes : Bytes) : Except StoreError KeyBytes :=
  match KeyBytes.ofBytes? bytes with
  | some key => .ok key
  | none => .error (.corrupted (.keySize what bytes.length))

/-- The bytes of the address and of the mask of a net, each in any form of bytes. -/
def rawNet? : Value → Option (Bytes × Bytes)
  | .array [a, m] => do some (← a.asBytes?, ← m.asBytes?)
  | _ => none

/-- What a fault in the raw bytes of a net means for the record around them: a refusal makes it a
corrupted one, and where counting breaks off, the reading of the record breaks off too. -/
def netFault : Net.RawFault → StoreError
  | .refused reason => .corrupted (.address reason)
  | .overflow => .brokenOff

/-- Raw bytes that must be a net; see `netFault` for what becomes of a fault. -/
def readNet (raw : Bytes × Bytes) : Except StoreError Net :=
  (Net.ofRaw raw.1 raw.2).mapError netFault

/-- Raw bytes that must be an address, of four or sixteen bytes. -/
def readAddress (raw : Bytes) : Except StoreError Address :=
  (Address.ofBytes raw).mapError fun e => .corrupted (.address e)

/-- A number of seconds that must be one of sixteen bits, if there is one. -/
def readKeepalive : Option Int → Except StoreError (Option UInt16)
  | none => .ok none
  | some i =>
    if 0 ≤ i ∧ i < 65536 then .ok (some (UInt16.ofNat i.toNat))
    else .error (.corrupted (.keepalive i))

/-- The array of the two parts of a net, its address and its mask. -/
def writeNet (net : Net) : Bytes :=
  let (address, mask) := net.toRaw
  writeArray [writeBinary address, writeBinary mask]

end Record

namespace Credential

/-- The names of the fields, in the order in which they are stored. The key is no field, for it is
where the record is kept. -/
def fields : List String := ["comment"]

/-- The stored value of a credential: its header and the array of its one field. -/
def encode (c : Credential) : Bytes := Record.frame (writeArray [writeText c.comment])

/-- The comment that a record holds, from an array or from a map. -/
def comment? (v : Value) : Option String := do
  match ← v.asFields? fields with
  | [some comment] => comment.asString?
  | _ => none

/-- Read the credential that is stored under a key, which need not be one itself. -/
def decode (key value : Bytes) : Except StoreError Credential := do
  let v ← Record.readPayload (← Record.unframe value)
  let comment ← Record.expect comment? v
  pure ⟨key, comment⟩

end Credential

namespace ServerIdentity

/-- The names of the fields, of which there is one. -/
def fields : List String := ["private_key"]

/-- The stored value of the server's identity: its header and the array of its one field. -/
def encode (s : ServerIdentity) : Bytes :=
  Record.frame (writeArray [writeBinary s.privateKey.bytes])

/-- The bytes of the key that a record holds, as many as there are. -/
def raw? (v : Value) : Option Bytes := do
  match ← v.asFields? fields with
  | [some key] => key.asBytes?
  | _ => none

/-- Read the server's identity; bytes that are no key make it corrupted. -/
def decode (value : Bytes) : Except StoreError ServerIdentity := do
  let v ← Record.readPayload (← Record.unframe value)
  let key ← Record.readKey "private key" (← Record.expect raw? v)
  pure ⟨⟨key⟩⟩

end ServerIdentity

namespace PeerIdentity

/-- The names of the fields, in the order in which they are stored. The name is no field, for it is
where the record is kept. -/
def fields : List String :=
  ["address", "private_key", "public_key", "dns", "allowed_ips", "persistent_keepalive"]

/-- The fields of a peer as they are stored: they have the right forms, but may still be no keys,
nets or addresses. -/
structure Raw where
  address : Bytes × Bytes
  privateKey : Bytes
  publicKey : Bytes
  dns : List Bytes
  allowedIPs : List (Bytes × Bytes)
  persistentKeepalive : Option Int

/-- The stored value of a peer: its header and the array of its six fields. -/
def encode (p : PeerIdentity) : Bytes :=
  Record.frame (writeArray [Record.writeNet p.address, writeBinary p.privateKey.bytes,
    writeBinary p.publicKey.bytes, writeArray (p.dns.map fun a => writeBinary a.toBytes),
    writeArray (p.allowedIPs.map Record.writeNet),
    writeOptional (fun n => writeNatural n.toNat) p.persistentKeepalive])

/-- The fields that a record holds, from an array or from a map; only the keepalive interval may be
missing. -/
def raw? (v : Value) : Option Raw := do
  match ← v.asFields? fields with
  | [some address, some privateKey, some publicKey, some dns, some allowedIPs, keepalive] =>
    let address ← Record.rawNet? address
    let privateKey ← privateKey.asBytes?
    let publicKey ← publicKey.asBytes?
    let dns ← dns.asList? Value.asBytes?
    let allowedIPs ← allowedIPs.asList? Record.rawNet?
    let keepalive ← (keepalive.getD .null).asOptional? Value.asInt?
    some ⟨address, privateKey, publicKey, dns, allowedIPs, keepalive⟩
  | _ => none

/-- The peer with a name whose fields are given. The error is that of the first field that cannot be
read, lists first. -/
def ofRaw (name : String) (raw : Raw) : Except StoreError PeerIdentity := do
  let dns ← raw.dns.mapM Record.readAddress
  let allowedIPs ← raw.allowedIPs.mapM Record.readNet
  let keepalive ← Record.readKeepalive raw.persistentKeepalive
  let address ← Record.readNet raw.address
  let privateKey ← Record.readKey "private key" raw.privateKey
  let publicKey ← Record.readKey "public key" raw.publicKey
  pure ⟨name, address, ⟨privateKey⟩, ⟨publicKey⟩, dns, allowedIPs, keepalive⟩

/-- Read the peer that is stored under a name. What is no record is undecodable, and one with a bad
field is corrupted. -/
def decode (name : String) (value : Bytes) : Except StoreError PeerIdentity := do
  let v ← Record.readPayload (← Record.unframe value)
  ofRaw name (← Record.expect raw? v)

end PeerIdentity

end WireKeeper
