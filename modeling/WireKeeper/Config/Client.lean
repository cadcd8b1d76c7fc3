import WireKeeper.Config.Section

/-! # The interface file of a client

The configuration a client is handed: its own `Interface` section and one `Peer` section for the
server. The **endpoint** is where the server listens, `host:port`, with brackets around a host that
contains colons. -/

namespace WireKeeper.Config

/-- The interface of a client: its name, which is only a comment in the file, its address in the
subnet and its own key. -/
structure ClientInterface where
  name : Option String
  address : Net
  privateKey : PrivateKey
  dns : List Address
  deriving DecidableEq

/-- The server as a client knows it: where it is reached, its key, and the nets that are routed to
it. -/
structure ClientPeer where
  name : Option String
  endpointHost : String
  endpointPort : UInt16
  publicKey : PublicKey
  allowedIPs : List Net
  persistentKeepalive : Option UInt16
  deriving DecidableEq

/-- The configuration of a client. The file has one interface and one peer, which is the server. -/
structure Client where
  interface : ClientInterface
  peer : ClientPeer
  deriving DecidableEq

namespace Client

/-- The endpoint of a host and a port, `host:port`. A host with a colon in it gets brackets, whether
or not it has some already. -/
def writeEndpoint (host : List Char) (port : UInt16) : List Char :=
  let host := if ':' ∈ host then '[' :: host ++ [']'] else host
  host ++ ':' :: Text.decimal port.toNat

/-- Read an endpoint: the port follows the last colon, and all brackets around the host are put
away, closed or not. -/
def readEndpoint (value : List Char) : Except Error (List Char × UInt16) :=
  match Text.cutLast ':' value with
  | none => .error (.notEndpoint value)
  | some (host, port) =>
    let host := host.dropWhile (· == '[')
    let host := (host.reverse.dropWhile (· == ']')).reverse
    (Section.readPort "Endpoint" port).map fun p => (host, p)

/-- The section of the interface. Its name is the comment line in front, and without DNS servers
there is no entry for them. -/
def interfaceSection (i : ClientInterface) : Section :=
  let dns := if i.dns.isEmpty then [] else [("DNS".toList, (Address.formatAll i.dns ",").toList)]
  ⟨"Interface".toList, i.name.map String.toList,
    [("Address".toList, i.address.write), ("PrivateKey".toList, i.privateKey.toBase64.toList)] ++
      dns⟩

/-- The endpoint of the server as text, the value of the entry `Endpoint`. -/
def endpoint (p : ClientPeer) : List Char := writeEndpoint p.endpointHost.toList p.endpointPort

/-- The section of the server, with an entry for the keepalive only if one is set. -/
def peerSection (p : ClientPeer) : Section :=
  let keepalive := match p.persistentKeepalive with
    | some n => [("PersistentKeepalive".toList, Text.decimal n.toNat)]
    | none => []
  ⟨"Peer".toList, p.name.map String.toList,
    [("Endpoint".toList, endpoint p), ("PublicKey".toList, p.publicKey.toBase64.toList),
      ("AllowedIPs".toList, (Net.formatAll p.allowedIPs ",").toList)] ++ keepalive⟩

/-- The sections of a configuration, first the interface's and then the server's. -/
def sections (c : Client) : List Section := [interfaceSection c.interface, peerSection c.peer]

/-- The file of a configuration: its two sections with a blank line between them. -/
def write (c : Client) : List Char := Section.writeAll c.sections

/-- The text of a configuration is its file. -/
instance : ToString Client := ⟨fun c => String.ofList c.write⟩

/-- Read the section of the interface: the address and the key must be there, the DNS servers need
not. The comment line before the title gives the name. -/
def readInterface (s : Section) : Except Error ClientInterface := do
  let address ← Section.readNet (← s.require "Interface" "Address")
  let privateKey ← Section.readPrivateKey (← s.require "Interface" "PrivateKey")
  let dns ← match s.get? "DNS" with
    | some value => Section.readAddresses value
    | none => pure []
  pure ⟨s.comment.map String.ofList, address, privateKey, dns⟩

/-- Read the section of the server. Endpoint, key and nets must be there, and the keepalive need
not. -/
def readPeer (s : Section) : Except Error ClientPeer := do
  let (host, port) ← readEndpoint (← s.require "Peer" "Endpoint")
  let publicKey ← Section.readPublicKey (← s.require "Peer" "PublicKey")
  let allowedIPs ← Section.readNets (← s.require "Peer" "AllowedIPs")
  let keepalive ← s.readPort? "PersistentKeepalive"
  pure ⟨s.comment.map String.ofList, String.ofList host, port, publicKey, allowedIPs, keepalive⟩

/-- Read a configuration from its sections: the first `Interface` and the first `Peer`. Sections
with other titles do not count. -/
def ofSections (sections : List Section) : Except Error Client := do
  let interface ← Section.first sections "Interface"
  let peer ← Section.first sections "Peer"
  pure ⟨← readInterface interface, ← readPeer peer⟩

/-- Read a configuration from its file; the error is that of the first bad line, if there is one,
and else of the first value that is missing or wrong. -/
def parse (s : String) : Except Error Client := do ofSections (← Section.readAll s.toList)

end Client

end WireKeeper.Config
