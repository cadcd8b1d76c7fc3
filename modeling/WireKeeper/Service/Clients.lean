import WireKeeper.Config.Client
import WireKeeper.Interface.Controller
import WireKeeper.Service.Error
import WireKeeper.Settings.Resolved
import WireKeeper.Store.Session

/-! # Clients

The service that keeps the clients: a record of each in the store and a peer of each at the
interface.

Adding and removing go in three parts. First everything that can be refused is checked, with the
change of the store inside a transaction and the change of the interface only staged. Then the
transaction is committed, and its section is kept. Last the change is applied to the interface; if
that fails, the commit is undone under the same section.

Addresses for clients are handed out upward from the server's own. The **cursor** is the single-host
net of the highest address inside the subnet that the service knows of.

* `Allocation.cursor`, `Allocation.next`: the cursor, and the address after it;
* `Service.start`: the service over a store and a controller;
* `Service.add`, `Service.remove`, `Service.get`, `Service.infos`: clients;
* `Service.bringUp`, `Service.bringDown`, `Service.reload`: the interface. -/

namespace WireKeeper

/-! ## Allocation of addresses -/

namespace Allocation

/-- Whether a net sits inside a subnet and above the cursor; an address outside never moves it. -/
def isBeyond (subnet candidate cursor : Net) : Bool :=
  subnet.contains candidate.address &&
    subnet.hostBits cursor.address < subnet.hostBits candidate.address

/-- The cursor once an address is known to be in use: never below the cursor before. -/
def advance (server candidate cursor : Net) : Net :=
  if isBeyond server.network candidate cursor then candidate.toHost else cursor

/-- The cursor at the start: the server's address and those in use, in order. Those outside the
subnet do not count. -/
def cursor (server : Net) (inUse : List Net) : Net :=
  inUse.foldl (fun cursor net => advance server net cursor) server.toHost

/-- The address after the cursor with the prefix length of the server; the last address of the
subnet is not handed out. -/
def next (server cursor : Net) : Except ServiceError Net :=
  let subnet := server.network
  match cursor.next with
  | .error .overflow => .error (.exhausted subnet)
  | .error e => .error (.ofAddress e)
  | .ok n =>
    if !subnet.contains n.address || n.address = subnet.last then .error (.exhausted subnet)
    else .ok (server.withValue n.address.value)

end Allocation

/-! ## The service -/

/-- What can be asked for when a client is added; whatever is not asked for is taken from the
settings. -/
structure AddOptions where
  address : Option Net := none
  /-- Instead of the default list, even when empty. -/
  dns : Option (List Address) := none
  /-- Instead of the default list, unless empty. -/
  allowedIPs : List Net := []
  persistentKeepalive : Option UInt16 := none
  deriving DecidableEq

/-- A client in a listing, with its traffic if any is known. -/
structure ClientInfo where
  config : Config.Client
  stats : Option PeerStats
  deriving DecidableEq

/-- A running service with the store and the controller it works on. It is the only one to change
the clients in them. -/
structure Service where
  settings : ServiceSettings
  publicKey : PublicKey
  /-- The highest address inside the subnet that was in use. -/
  cursor : Net
  store : Store
  controller : Controller

namespace Service

/-- The peer of a client at the interface: its key and its own address, of which the prefix is cut
off. -/
def projection (p : PeerIdentity) : Config.ServerPeer := ⟨p.name, p.publicKey, [p.address.toHost]⟩

/-- The name of the server in the configuration of clients, the same for all. -/
def serverName : String := "Server"

/-- The configuration of a client: what is stored of it, and the server as the settings
describe it. -/
def clientConfig (s : Service) (p : PeerIdentity) : Config.Client :=
  ⟨⟨some p.name, p.address, p.privateKey, p.dns⟩,
    ⟨some serverName, s.settings.host, s.settings.port, s.publicKey, p.allowedIPs,
      p.persistentKeepalive⟩⟩

/-! ## Starting -/

/-- The identity of the server: the stored one, or a new one with a fresh key, which is stored. Any
other failure to read it stays one. -/
def identity (fresh : PrivateKey) : Access ServerIdentity := do
  match ← (try some <$> Identity.get catch
    | .notFound _ => pure none
    | e => throw e) with
  | some identity => pure identity
  | none =>
    Identity.set ⟨fresh⟩
    pure ⟨fresh⟩

/-- What a service reads when it starts: the identity of the server, which may be made here, and all
clients. -/
def load (fresh : PrivateKey) : Access (ServerIdentity × List PeerIdentity) := do
  let identity ← identity fresh
  let peers ← Peers.all
  pure (identity, peers)

/-- The configuration of the interface for the stored peers, in the order of their names. -/
def interfaceConfig (settings : ServiceSettings) (interface : String) (identity : ServerIdentity)
    (peers : List PeerIdentity) : Config.Server :=
  { Config.Server.forwarding identity.privateKey settings.address (some settings.port)
      settings.device interface with peers := peers.map projection }

/-- Start a service; `fresh` becomes the key of the server if it has none. A failing start changes
nothing. -/
def start (settings : ServiceSettings) (fresh : PrivateKey) (store : Store)
    (controller : Controller) : Except ServiceError Service :=
  match store.update (load fresh) with
  | (.error e, _) => .error (.ofStore e)
  | (.ok (identity, peers), store) =>
    let config := interfaceConfig settings controller.interface identity peers
    let cursor := Allocation.cursor settings.address (peers.map PeerIdentity.address)
    .ok ⟨settings, identity.privateKey.publicKey, cursor, store, controller.load config⟩

/-! ## Adding and removing -/

/-- The address of a new client: the requested one, or the next free one. Of a requested one only
the server is asked whether it is in the way. -/
def chooseAddress (s : Service) (requested : Option Net) : Except ServiceError Net :=
  match requested with
  | some net =>
    -- the addresses of other clients are not looked at
    if net.overlaps s.settings.address.address then
      .error (.overlap net s.settings.address.address)
    else .ok net
  | none => Allocation.next s.settings.address s.cursor

/-- The record of a new client: what is asked for, and the settings for the rest. An empty list of
nets counts as not asked for, an empty list of DNS servers does not. -/
def newPeer (s : Service) (fresh : PrivateKey) (name : String) (address : Net)
    (options : AddOptions) : PeerIdentity :=
  ⟨name, address, fresh, fresh.publicKey, options.dns.getD s.settings.dns,
    if options.allowedIPs.isEmpty then s.settings.allowedIPs else options.allowedIPs,
    options.persistentKeepalive <|> s.settings.persistentKeepalive⟩

/-- Write the record of a new client inside a transaction, unless its name is taken or there is no
address for it. -/
def writeNew (s : Service) (fresh : PrivateKey) (name : String) (options : AddOptions)
    (t : Transaction) : Except ServiceError PeerIdentity × Transaction :=
  match t.run (Peers.contains name) with
  | (.error e, t) => (.error (.ofStore e), t)
  | (.ok true, t) => (.error (.alreadyExists .wireGuard), t)
  | (.ok false, t) =>
    match s.chooseAddress options.address with
    | .error e => (.error e, t)
    | .ok address =>
      let peer := s.newPeer fresh name address options
      match t.run (Peers.add peer) with
      | (.error e, t) => (.error (.ofStore e), t)
      | (.ok _, t) => (.ok peer, t)

/-- Undo a commit under the section it kept, and leave the section. When even that fails, the commit
stays. -/
def undo (kept : KeptSection) (revert : Access Unit) (store : Store) : Store :=
  match kept.reopen store with
  | (.error _, store) => store
  | (.ok t, store) =>
    match t.run revert with
    | (.error _, t) => t.rollback store
    | (.ok _, t) =>
      let (kept, store) := t.commit store
      kept.release store

/-- Begin an update. Nobody else holds the section of a service at rest, so it is not blocked. -/
def begin (s : Service) : Except ServiceError (Transaction × Store) :=
  match s.store.begin .update with
  | .blocked => .error (.internal (.other "section is held"))
  | .failed e => .error (.ofStore e)
  | .begun t store => .ok (t, store)

/-- Add a client with a fresh key; gives its configuration. When it fails, the undo of what was
committed is tried, and the cursor stays. -/
def add (s : Service) (fresh : PrivateKey) (name : String) (options : AddOptions) :
    Except ServiceError Config.Client × Service :=
  match s.begin with
  | .error e => (.error e, s)
  | .ok (t, store) =>
    match s.writeNew fresh name options t with
    | (.error e, t) => (.error e, { s with store := t.rollback store })
    | (.ok peer, t) =>
      match s.controller.stage (projection peer) with
      | .error e => (.error (.ofInterface e), { s with store := t.rollback store })
      | .ok staged =>
        let (kept, store) := t.commit store
        match s.controller.apply staged with
        -- the commit is undone before anyone else can begin
        | (.error e, controller) =>
          (.error (.ofInterface e),
            { s with store := undo kept (Peers.remove name) store, controller := controller })
        | (.ok _, controller) =>
          (.ok (s.clientConfig peer),
            { s with
              store := kept.release store
              controller := controller
              -- only an addition that has succeeded moves the cursor
              cursor := Allocation.advance s.settings.address peer.address s.cursor })

/-- Remove the record of a client inside a transaction; gives the record, for the undo. -/
def eraseOld (name : String) (t : Transaction) : Except ServiceError PeerIdentity × Transaction :=
  match t.run (Peers.get name) with
  -- the error names the client, not the record
  | (.error (.notFound _), t) => (.error (.notFound .wireGuard), t)
  | (.error e, t) => (.error (.ofStore e), t)
  | (.ok peer, t) =>
    match t.run (Peers.remove name) with
    | (.error e, t) => (.error (.ofStore e), t)
    | (.ok _, t) => (.ok peer, t)

/-- Check that the interface knows a client whose record is there, so that the two are in step. -/
def checkLive (s : Service) (name : String) : Except ServiceError Unit :=
  match s.controller.has name with
  | .error e => .error (.ofInterface e)
  | .ok false => .error (.internal (.notLive name))
  | .ok true => .ok ()

/-- Remove a client; its address is not given again as long as the service runs. When it fails, the
undo of what was committed is tried. -/
def remove (s : Service) (name : String) : Except ServiceError Unit × Service :=
  match s.begin with
  | .error e => (.error e, s)
  | .ok (t, store) =>
    match eraseOld name t with
    | (.error e, t) => (.error e, { s with store := t.rollback store })
    | (.ok peer, t) =>
      match s.checkLive name with
      | .error e => (.error e, { s with store := t.rollback store })
      | .ok _ =>
        let (kept, store) := t.commit store
        match s.controller.remove name with
        | (.error e, controller) =>
          (.error (.ofInterface e),
            { s with store := undo kept (Peers.add peer) store, controller := controller })
        | (.ok _, controller) =>
          (.ok (), { s with store := kept.release store, controller := controller })

/-! ## Reading -/

/-- The configuration of a client, from its record; the interface is not asked. -/
def get (s : Service) (name : String) : Except ServiceError Config.Client :=
  match s.store.view (Peers.get name) with
  | .ok peer => .ok (s.clientConfig peer)
  | .error (.notFound _) => .error (.notFound .wireGuard)
  | .error e => .error (.ofStore e)

variable {σ : Type}

/-- All clients in the order of their names, with the traffic of those that the interface reports.
When the tools fail, no traffic is known, and the listing succeeds all the same. -/
def infos (s : Service) (tools : Toolbox σ) (h : Host σ) :
    Except ServiceError (List ClientInfo) × Host σ :=
  match s.store.view Peers.all with
  | .error e => (.error (.ofStore e), h)
  | .ok peers =>
    let (result, h) := s.controller.stats tools h
    let stats := match result with
      | .ok stats => stats
      | .error _ => []
    (.ok (peers.map fun p => ⟨s.clientConfig p, stats.get? p.publicKey⟩), h)

/-! ## The interface -/

/-- Write the file of the interface, from the configuration as the controller has it. -/
def writeFile (s : Service) (h : Host σ) : Except ServiceError Unit × Host σ :=
  let (result, disk) := ConfigFile.write s.controller h.disk
  (result.mapError .ofInterface, { h with disk := disk })

/-- Write the file and bring the interface up; without the file no tool is called. -/
def bringUp (s : Service) (tools : Toolbox σ) (h : Host σ) : Except ServiceError Unit × Host σ :=
  match s.writeFile h with
  | (.error e, h) => (.error e, h)
  | (.ok _, h) =>
    let (result, h) := s.controller.start tools h
    (result.mapError .ofInterface, h)

/-- Bring the interface down; its file stays. -/
def bringDown (s : Service) (tools : Toolbox σ) (h : Host σ) : Except ServiceError Unit × Host σ :=
  let (result, h) := s.controller.stop tools h
  (result.mapError .ofInterface, h)

/-- Write the file and give it to the running interface; without the file no tool is called. -/
def reload (s : Service) (tools : Toolbox σ) (scratch : String) (h : Host σ) :
    Except ServiceError Unit × Host σ :=
  match s.writeFile h with
  | (.error e, h) => (.error e, h)
  | (.ok _, h) =>
    let (result, h) := s.controller.reload tools scratch h
    (result.mapError .ofInterface, h)

end Service

end WireKeeper
