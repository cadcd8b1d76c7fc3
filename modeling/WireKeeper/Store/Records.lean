import WireKeeper.Record.Codec
import WireKeeper.Store.Access

/-! # Records in a transaction

What can be done with the records of each bucket inside a transaction. -/

namespace WireKeeper

namespace Credentials

/-- Add a credential under a new key; one that is there already is not replaced. -/
def add (c : Credential) : Access Unit := do
  if ← Access.insertNew .credentials c.key c.encode then pure ()
  else throw (.alreadyExists .publicKey)

/-- Write a credential, instead of one under the same key. -/
def set (c : Credential) : Access Unit := Access.put .credentials c.key c.encode

/-- Whether there is a credential under a key; its value is not read. -/
def contains (key : Bytes) : Access Bool := Access.contains .credentials key

/-- Remove the credential under a key, if there is one; otherwise nothing happens. -/
def remove (key : Bytes) : Access Unit := do discard (Access.erase .credentials key)

/-- All credentials in the order of their keys; one that cannot be read fails the whole. -/
def all : Access (List Credential) := do
  let rows ← Access.all .credentials
  liftM (rows.mapM fun r => Credential.decode r.1 r.2)

/-- Remove all credentials and write others; of several with one key the last one stays. -/
def replaceAll (cs : List Credential) : Access Unit := do
  Access.clear .credentials
  cs.forM set

end Credentials

namespace Peers

/-- The key of a name: its UTF-8, so that peers are in the order of the bytes of their names. -/
def key (name : String) : Bytes := Utf8.ofString name

/-- Add a peer under a new name; one that is there already is not replaced. -/
def add (p : PeerIdentity) : Access Unit := do
  if ← Access.insertNew .peers (key p.name) p.encode then pure ()
  else throw (.alreadyExists (.peer p.name))

/-- Remove a peer, which must be there. -/
def remove (name : String) : Access Unit := do
  if ← Access.erase .peers (key name) then pure () else throw (.notFound (.peer name))

/-- Whether there is a peer with a name; its value is not read. -/
def contains (name : String) : Access Bool := Access.contains .peers (key name)

/-- The peer with a name, which must be there and readable. -/
def get (name : String) : Access PeerIdentity := do
  match ← Access.get? .peers (key name) with
  | some value => liftM (PeerIdentity.decode name value)
  | none => throw (.notFound (.peer name))

/-- The peer in a row, whose name is its key; a key that is no UTF-8 makes it corrupted. -/
def ofRow (r : Row) : Except StoreError PeerIdentity :=
  match Utf8.decode r.1 with
  | .ok name => PeerIdentity.decode (String.ofList name) r.2
  | .error e => .error (.corrupted (.nameNotText e))

/-- All peers in the order of their names; one that cannot be read fails the whole. -/
def all : Access (List PeerIdentity) := do
  let rows ← Access.all .peers
  liftM (rows.mapM ofRow)

end Peers

namespace Identity

/-- The key of the only row, the same for every server. -/
def key : Bytes := Utf8.ofString "config"

/-- Write the identity of the server, instead of the one that is there. -/
def set (s : ServerIdentity) : Access Unit := Access.put .server key s.encode

/-- The identity of the server, which must be there and readable. -/
def get : Access ServerIdentity := do
  match ← Access.get? .server key with
  | some value => liftM (ServerIdentity.decode value)
  | none => throw (.notFound .serverIdentity)

/-- Whether the server has an identity; its value is not read. -/
def present : Access Bool := Access.contains .server key

end Identity

end WireKeeper
