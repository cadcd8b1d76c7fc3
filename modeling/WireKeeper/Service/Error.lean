import WireKeeper.AuthorizedKey
import WireKeeper.Interface.Error
import WireKeeper.Net.Subnet
import WireKeeper.Store.Error

/-! # What the services answer when something fails

A `ServiceError` is one that an administrator can act on, or an **internal** one. Each has a kind, a
full message and a public message; the public message of what nobody outside can mend says only that
there was an internal error. -/

namespace WireKeeper

/-- What a service is about: the keys of the administrators or the clients. -/
inductive Domain where
  | publicKey
  | wireGuard
  deriving DecidableEq, Repr

/-- The tag of a domain, with which its messages begin. -/
def Domain.tag : Domain → String
  | .publicKey => "pubkey"
  | .wireGuard => "wg"

/-- The record a domain is about, as messages call it. -/
def Domain.record : Domain → String
  | .publicKey => "public key"
  | .wireGuard => "wireguard client"

/-- The cause of an internal error, which those outside do not get to see. -/
inductive InternalCause where
  | store (reason : StoreError)
  | interface (reason : InterfaceError)
  | address (reason : AddressError)
  /-- A stored credential that is no key. -/
  | storedKey (reason : AuthorizedKeyError)
  /-- A client that the interface does not know. -/
  | notLive (name : String)
  | other (text : String)
  deriving DecidableEq, Repr

/-- The wording of a cause, which is the one of the layer it comes from. -/
def InternalCause.message : InternalCause → String
  | .store reason => reason.message
  | .interface reason => reason.message
  | .address reason => reason.message
  | .storedKey reason => s!"stored public key: {reason.message}"
  | .notLive name => s!"wireguard server peer {name} not found"
  | .other text => text

/-- Why a service refuses. All but the last two kinds and the failures of tools can be acted on from
outside. -/
inductive ServiceError where
  | notFound (domain : Domain)
  | alreadyExists (domain : Domain)
  /-- A requested address whose network holds the server. -/
  | overlap (requested : Net) (server : Address)
  /-- No address is left. -/
  | exhausted (subnet : Net)
  | toolFailed (command stderr : String)
  /-- A refusal in a domain's own words. -/
  | refused (domain : Domain) (reason : String)
  | internal (cause : InternalCause)
  deriving DecidableEq

/-- The kinds of errors, by which callers tell them apart without looking at texts. -/
inductive ErrorKind where
  | notFound
  | alreadyExists
  | overlap
  | allocationExhausted
  | externalToolFailure
  | internal
  | domain
  deriving DecidableEq, Repr

namespace ServiceError

/-- The kind of an error; errors of one kind differ in what they are about. -/
def kind : ServiceError → ErrorKind
  | notFound _ => .notFound
  | alreadyExists _ => .alreadyExists
  | overlap .. => .overlap
  | exhausted _ => .allocationExhausted
  | toolFailed .. => .externalToolFailure
  | refused .. => .domain
  | internal _ => .internal

/-- The domain of an error that a caller can act on, and `none` for any other. -/
def domain? : ServiceError → Option Domain
  | notFound d => some d
  | alreadyExists d => some d
  | refused d _ => some d
  | overlap .. => some .wireGuard
  | exhausted _ => some .wireGuard
  | toolFailed .. => none
  | internal _ => none

/-- What stands for everything that a caller cannot act on. -/
def generic : String := "internal error"

/-- What the administrator gets to see: no path, no output of a tool and no text of the store. -/
def publicMessage : ServiceError → String
  | notFound d => s!"{d.record} not found"
  | alreadyExists d => s!"{d.record} already exists"
  | overlap .. => "wireguard client address overlaps with wireguard server address"
  | exhausted _ => "no free wireguard client addresses left"
  | refused _ reason => reason
  | toolFailed .. => generic
  | internal _ => generic

/-- The full message, for those who run the server. -/
def message : ServiceError → String
  | overlap requested server =>
    s!"wg: wireguard client address {requested} overlaps with wireguard server address {server}"
  | exhausted subnet => s!"wg: no free addresses left in {subnet}"
  | toolFailed command stderr => s!"failed to run {Text.quoted command}: {stderr}"
  | internal cause => s!"{generic}: {cause.message}"
  | notFound d => s!"{d.tag}: {d.record} not found"
  | alreadyExists d => s!"{d.tag}: {d.record} already exists"
  | refused d reason => s!"{d.tag}: {reason}"

/-- Whether nobody gets this error, because the reading of a record broke off underneath: what was
begun is given up, and whoever gave the order has no answer. -/
def breaksOff : ServiceError → Bool
  | internal (.store .brokenOff) => true
  | _ => false

/-- An error of the store: a key or a client that is there or is not, or an internal one. -/
def ofStore : StoreError → ServiceError
  | .alreadyExists .publicKey => alreadyExists .publicKey
  | .notFound .publicKey => notFound .publicKey
  | .alreadyExists (.peer _) => alreadyExists .wireGuard
  | .notFound (.peer _) => notFound .wireGuard
  | e => internal (.store e)

/-- An error of the interface: a tool's failure, or an internal one. -/
def ofInterface : InterfaceError → ServiceError
  | .toolFailed command stderr => toolFailed command stderr
  | e => internal (.interface e)

/-- An error of address arithmetic, which is always internal: what a caller asks for is checked
before. -/
def ofAddress (e : AddressError) : ServiceError := internal (.address e)

end ServiceError

end WireKeeper
