import WireKeeper.Key
import WireKeeper.Text.Glyph

/-! # What can go wrong at the interface

The causes of failures of the interface's controller, of the tools it uses and of the status dump,
with their wording. -/

namespace WireKeeper

/-- Why a status dump cannot be read. Fields are kept as they stood in the dump. -/
inductive DumpFault where
  | badKey (field : String) (reason : KeyError)
  | notNumber (what field : String)
  /-- A handshake later than any date. -/
  | lateHandshake (seconds : Nat)
  /-- A last record of fewer than eight fields. -/
  | truncated (fields : Nat)
  /-- Positions of a field one of which stands inside a character. -/
  | insideCharacter (start stop : Nat)
  | other (text : String)
  deriving DecidableEq, Repr

/-- The wording of a fault, with the field in quotes where one is to blame. -/
def DumpFault.message : DumpFault → String
  | .badKey field reason => s!"public key {Text.quoted field}: {reason.message}"
  | .notNumber what field => s!"{what} {Text.quoted field} is not a number"
  | .lateHandshake seconds => s!"handshake {seconds} out of range"
  | .truncated fields => s!"truncated peer record: {fields} of 8 fields"
  | .insideCharacter start stop => s!"bytes {start} to {stop} are not whole characters"
  | .other text => text

/-- Why an operation on the interface fails, be it at the controller, at a tool, at a file or at
what a tool has printed. -/
inductive InterfaceError where
  | peerExists (name : String)
  | peerNotFound (name : String)
  | notConfigured
  | toolFailed (command stderr : String)
  | file (reason : String)
  | badDump (fault : DumpFault)
  deriving DecidableEq, Repr

/-- The wording of an error. Names of peers are not quoted, and a tool is shown with what it has
printed. -/
def InterfaceError.message : InterfaceError → String
  | .peerExists name => s!"peer {name} already exists"
  | .peerNotFound name => s!"peer {name} not found"
  | .notConfigured => "interface configuration has not been loaded"
  | .toolFailed command stderr => s!"{command} failed: {stderr}"
  | .file reason => s!"I/O error: {reason}"
  | .badDump fault => s!"failed to parse status dump: {fault.message}"

end WireKeeper
