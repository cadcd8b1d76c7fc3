import WireKeeper.Service.Error
import WireKeeper.Store.Batch

/-! # Administrators

The keys of the administrators, kept as credentials under their blobs: two lines that differ in
their comments only mean the same administrator. -/

namespace WireKeeper.Administrators

/-- The record of a key: its blob, under which it is kept, and its comment. -/
def credential (key : AuthorizedKey) : Credential := ⟨key.blob, key.comment⟩

/-- Add a key that is not there yet; one with the same blob is there already, whatever its
comment. -/
def add (key : AuthorizedKey) (s : Store) : Except ServiceError Unit × Store :=
  let (result, s) := s.update (Credentials.add (credential key))
  (result.mapError .ofStore, s)

/-- Whether a blob belongs to an administrator, which only reads. -/
def contains (blob : Bytes) (s : Store) : Except ServiceError Bool :=
  (s.view (Credentials.contains blob)).mapError .ofStore

/-- Remove the key with a blob, or fail as there is none. -/
def remove (blob : Bytes) (s : Store) : Except ServiceError Unit × Store :=
  let (result, s) := s.update do
    if ← Credentials.contains blob then Credentials.remove blob
    else throw (.notFound .publicKey)
  (result.mapError .ofStore, s)

/-- The key in a credential. A stored blob that names no algorithm is an internal error. -/
def ofCredential (c : Credential) : Except ServiceError AuthorizedKey :=
  (AuthorizedKey.ofBlob c.key c.comment).mapError fun e => .internal (.storedKey e)

/-- All keys in the order of their blobs; one that cannot be read spoils the whole answer. -/
def all (s : Store) : Except ServiceError (List AuthorizedKey) :=
  match s.view Credentials.all with
  | .error e => .error (.ofStore e)
  | .ok cs => cs.mapM ofCredential

/-- The call that installs keys: beside the ones that are there, or in their place. Of keys with one
blob the last comment counts. -/
def syncCall (keys : List AuthorizedKey) (replace : Bool) : Call :=
  let cs := keys.map credential
  if replace then [⟨.operation (.replaceCredentials cs), false⟩]
  else cs.map fun c => ⟨.operation (.setCredential c), false⟩

/-- Install keys as one call of a batch, so either all of them are installed or none is. -/
def sync (keys : List AuthorizedKey) (replace : Bool) (s : Store) :
    Except ServiceError Unit × Store :=
  let (results, s) := Batch.run [syncCall keys replace] s
  (((results.head?.getD (.ok ())).mapError .ofStore), s)

end WireKeeper.Administrators
