import WireKeeper.Config.Section

/-! # The interface file of the server

The configuration that the interface of the server is brought up with: one `Interface` section and
a `Peer` section for each peer.

* `Server.parse` and `ToString`: reading and writing the file, by way of its sections;
* `Server.forwarding`: the interface section with the commands that forward the traffic of the
  peers to an outer device. -/

namespace WireKeeper.Config

/-- The interface of the server: its address in the subnet, the port it listens on, its own key, and
what is to be run around it. -/
structure ServerInterface where
  name : Option String
  address : Net
  listenPort : Option UInt16
  privateKey : PrivateKey
  /-- The commands to run after the interface is up. -/
  postUp : List String
  /-- The commands to run after the interface is down. -/
  postDown : List String
  deriving DecidableEq

/-- A peer as the server's interface knows it: a client by its name, with the nets that it
may use. -/
structure ServerPeer where
  name : String
  publicKey : PublicKey
  allowedIPs : List Net
  deriving DecidableEq

/-- The configuration of the server's interface, with the peers in the order in which they came. -/
structure Server where
  interface : ServerInterface
  peers : List ServerPeer
  deriving DecidableEq

/-- The port that is listened on unless another is given: 51820. -/
def defaultPort : UInt16 := 51820

namespace Server

/-- The commands that admit and forward traffic; `flag` adds or deletes the rules, so that both
lists of commands are made by this one definition. -/
def rules (flag : String) (network : Net) (port : UInt16) (device wire : String) : List String :=
  [s!"iptables -t nat {flag} POSTROUTING -s {network} -o {device} -j MASQUERADE",
    s!"iptables {flag} INPUT -i {device} -p udp -m udp --dport {port} -j ACCEPT",
    s!"iptables {flag} FORWARD -i {wire} -o {device} -j ACCEPT",
    s!"iptables {flag} FORWARD -i {device} -o {wire} -j ACCEPT"]

/-- A configuration without peers that forwards the traffic of the interface `wire` to `device`: its
commands add the rules when the interface is up and delete the same ones when it is down. -/
def forwarding (privateKey : PrivateKey) (address : Net) (port : Option UInt16)
    (device wire : String) : Server :=
  let port := port.getD defaultPort
  let rules := fun flag => rules flag address.network port device wire
  ⟨⟨none, address, some port, privateKey, rules "-A", rules "-D"⟩, []⟩

/-- The first peer with a name; names are compared character by character. -/
def find? (c : Server) (name : String) : Option ServerPeer := c.peers.find? fun p => p.name == name

/-- The section of the interface, with one entry for each command and one for the port only if there
is one. -/
def interfaceSection (i : ServerInterface) : Section :=
  let port := match i.listenPort with
    | some p => [("ListenPort".toList, Text.decimal p.toNat)]
    | none => []
  ⟨"Interface".toList, i.name.map String.toList,
    [("Address".toList, i.address.write)] ++ port ++
      [("PrivateKey".toList, i.privateKey.toBase64.toList)] ++
      i.postUp.map (fun c => ("PostUp".toList, c.toList)) ++
      i.postDown.map (fun c => ("PostDown".toList, c.toList))⟩

/-- The section of a peer. Its name is not in an entry but in the comment line in front of the
title. -/
def peerSection (p : ServerPeer) : Section :=
  ⟨"Peer".toList, some p.name.toList,
    [("PublicKey".toList, p.publicKey.toBase64.toList),
      ("AllowedIPs".toList, (Net.formatAll p.allowedIPs ",").toList)]⟩

/-- The sections of a configuration: the interface's, then one for each peer, in order. -/
def sections (c : Server) : List Section := interfaceSection c.interface :: c.peers.map peerSection

/-- The file of a configuration: its sections with a blank line between each two. -/
def write (c : Server) : List Char := Section.writeAll c.sections

/-- The text of a configuration is its file. -/
instance : ToString Server := ⟨fun c => String.ofList c.write⟩

/-- Read the section of the interface: the address and the key must be there. Every command of a
kind counts, in order, and of the other entries the last one. -/
def readInterface (s : Section) : Except Error ServerInterface := do
  let address ← Section.readNet (← s.require "Interface" "Address")
  let listenPort ← s.readPort? "ListenPort"
  let privateKey ← Section.readPrivateKey (← s.require "Interface" "PrivateKey")
  pure ⟨s.comment.map String.ofList, address, listenPort, privateKey,
    (s.all "PostUp").map String.ofList, (s.all "PostDown").map String.ofList⟩

/-- Read the section of a peer; one without a comment line in front has the empty name. -/
def readPeer (s : Section) : Except Error ServerPeer := do
  let publicKey ← Section.readPublicKey (← s.require "Peer" "PublicKey")
  let allowedIPs ← Section.readNets (← s.require "Peer" "AllowedIPs")
  pure ⟨String.ofList (s.comment.getD []), publicKey, allowedIPs⟩

/-- Read a configuration from its sections: the first `Interface` and every `Peer`, in order.
Sections with other titles do not count. -/
def ofSections (sections : List Section) : Except Error Server := do
  let interface ← readInterface (← Section.first sections "Interface")
  let peers ← (Section.titled sections "Peer").mapM readPeer
  pure ⟨interface, peers⟩

/-- Read a configuration from its file; the error is that of the first bad line, if there is one,
and else of the first value that is missing or wrong. -/
def parse (s : String) : Except Error Server := do ofSections (← Section.readAll s.toList)

end Server

end WireKeeper.Config
