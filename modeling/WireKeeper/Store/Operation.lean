import WireKeeper.Store.Records

/-! # Operations

The operations on records as data, with their replies: what a step of a session or a call of a batch
does. -/

namespace WireKeeper

/-- An operation on records, with all that it is given. -/
inductive Operation where
  | addCredential (c : Credential)
  | setCredential (c : Credential)
  | hasCredential (key : Bytes)
  | removeCredential (key : Bytes)
  | allCredentials
  | replaceCredentials (cs : List Credential)
  | addPeer (p : PeerIdentity)
  | removePeer (name : String)
  | hasPeer (name : String)
  | getPeer (name : String)
  | allPeers
  | setServer (s : ServerIdentity)
  | getServer
  | hasServer

/-- What an operation gives: an answer, records, or only that it is done. -/
inductive Reply where
  | done
  | answer (b : Bool)
  | credentials (cs : List Credential)
  | peer (p : PeerIdentity)
  | peers (ps : List PeerIdentity)
  | server (s : ServerIdentity)
  deriving DecidableEq

namespace Operation

/-- Do an operation: each is one of the accesses to records, with its result as a reply. -/
def perform : Operation → Access Reply
  | addCredential c => do Credentials.add c; pure .done
  | setCredential c => do Credentials.set c; pure .done
  | hasCredential key => Reply.answer <$> Credentials.contains key
  | removeCredential key => do Credentials.remove key; pure .done
  | allCredentials => Reply.credentials <$> Credentials.all
  | replaceCredentials cs => do Credentials.replaceAll cs; pure .done
  | addPeer p => do Peers.add p; pure .done
  | removePeer name => do Peers.remove name; pure .done
  | hasPeer name => Reply.answer <$> Peers.contains name
  | getPeer name => Reply.peer <$> Peers.get name
  | allPeers => Reply.peers <$> Peers.all
  | setServer s => do Identity.set s; pure .done
  | getServer => Reply.server <$> Identity.get
  | hasServer => Reply.answer <$> Identity.present

/-- Whether an operation changes records; the others are allowed in a view. -/
def changes : Operation → Bool
  | addCredential _ => true
  | setCredential _ => true
  | removeCredential _ => true
  | replaceCredentials _ => true
  | addPeer _ => true
  | removePeer _ => true
  | setServer _ => true
  | _ => false

end Operation

end WireKeeper
