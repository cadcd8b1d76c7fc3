import WireKeeper.Bytes.Base64
import WireKeeper.Bytes.Utf8
import WireKeeper.Key.Curve
import WireKeeper.Text.Basic

/-! # Keys

Thirty-two bytes, private or public, written as padded base64.

* `KeyBytes.parse`: the one text of each key, with blanks around it;
* `KeyBytes.clamp`: the fixed bits of a private key;
* `PrivateKey.publicKey`: the public key of a private key;
* `PrivateKey.shown`, `PublicKey.shown`: texts for messages, which hide private keys. -/

namespace WireKeeper

/-- The bytes of a key, thirty-two of them whatever they are; a public and a private key differ only
in what they are used for. -/
structure KeyBytes where
  bytes : Bytes
  length_eq : bytes.length = 32
  deriving DecidableEq

/-- Why a text is no key: it is no base64 at all, or it is that of some other number of bytes. -/
inductive KeyError where
  /-- Base64 of another number of bytes. -/
  | wrongLength (size : Nat)
  /-- No base64. -/
  | notBase64 (reason : Base64.Error)
  deriving DecidableEq, Repr

/-- The wording of an error, with the number of the bytes or with what is wrong with the base64. -/
def KeyError.message : KeyError → String
  | .wrongLength size => s!"incorrect key size: {size}"
  | .notBase64 reason => s!"failed to parse base64-encoded key: {reason.message}"

namespace KeyBytes

/-- Bytes as a key, if there are thirty-two: `ofBytes?_bytes` is the way back. -/
def ofBytes? (bytes : Bytes) : Option KeyBytes :=
  if h : bytes.length = 32 then some ⟨bytes, h⟩ else none

/-- Bytes as a key, or their number, which is then not thirty-two. -/
def ofBytes (bytes : Bytes) : Except KeyError KeyBytes :=
  if h : bytes.length = 32 then .ok ⟨bytes, h⟩ else .error (.wrongLength bytes.length)

/-- The key whose bytes, the least significant first, make up a number; what does not fit is left
out. -/
def ofNat (n : Nat) : KeyBytes := ⟨(Bytes.ofNat 32 n).reverse, by simp⟩

/-- The number whose bytes, the least significant first, are the key. -/
def toNat (key : KeyBytes) : Nat := Bytes.toNat key.bytes.reverse

/-- Read a key from its base64 text, with blanks around it. The text has to be right to its last
bit, as `key_texts_exact` says. -/
def parse (s : String) : Except KeyError KeyBytes :=
  match Base64.decode (Utf8.encode (Text.trim s.toList)) with
  | .ok bytes => ofBytes bytes
  | .error e => .error (.notBase64 e)

/-- The base64 text of a key: 43 symbols and one padding symbol. -/
def toBase64 (key : KeyBytes) : String := Base64.encode key.bytes

/-- The fixed bits of a scalar: a multiple of eight whose highest bit is bit 254. The first byte is
the least significant one. -/
def clampBytes (bytes : Bytes) : Bytes :=
  (bytes.modify 0 (· &&& 248)).modify 31 (fun b => (b &&& 127) ||| 64)

/-- The same key with the fixed bits of a private key; its other bits stay. -/
def clamp (key : KeyBytes) : KeyBytes := ⟨clampBytes key.bytes, by simp [clampBytes, key.length_eq]⟩

/-- The bytes of a key are read as that key: `ofBytes? key.bytes = some key`. -/
@[simp] theorem ofBytes?_bytes (key : KeyBytes) : ofBytes? key.bytes = some key := by
  simp [ofBytes?, key.length_eq]

end KeyBytes

/-- A public key, by which a peer is known. -/
structure PublicKey where
  toKeyBytes : KeyBytes
  deriving DecidableEq

/-- A private key. Nothing shows its bytes but its base64 text, for its file and for the store. -/
structure PrivateKey where
  toKeyBytes : KeyBytes
  deriving DecidableEq

namespace PublicKey

/-- The bytes of a public key, of which there are thirty-two. -/
def bytes (key : PublicKey) : Bytes := key.toKeyBytes.bytes

/-- Read a public key, as the bytes of a key are read. -/
def parse (s : String) : Except KeyError PublicKey := (KeyBytes.parse s).map PublicKey.mk

/-- The base64 text of a public key, of 44 characters. -/
def toBase64 (key : PublicKey) : String := key.toKeyBytes.toBase64

/-- The text of a public key is its base64 text. -/
instance : ToString PublicKey := ⟨toBase64⟩

/-- The text for messages: the first eight symbols, which tell keys apart well enough. -/
def shown (key : PublicKey) : String :=
  s!"WgPublicKey \x7b prefix: \"{key.toBase64.take 8}...\" \x7d"

/-- The text as a JSON value. Base64 has no character that is to be escaped there. -/
def json (key : PublicKey) : String := s!"\"{key.toBase64}\""

end PublicKey

namespace PrivateKey

/-- The bytes of a private key, of which there are thirty-two. -/
def bytes (key : PrivateKey) : Bytes := key.toKeyBytes.bytes

/-- Read a private key, as the bytes of a key are read; its fixed bits are not asked for. -/
def parse (s : String) : Except KeyError PrivateKey := (KeyBytes.parse s).map PrivateKey.mk

/-- The base64 text of a private key, the only one that tells it. -/
def toBase64 (key : PrivateKey) : String := key.toKeyBytes.toBase64

/-- A new private key from random bytes, with the fixed bits set. -/
def generate (random : KeyBytes) : PrivateKey := ⟨random.clamp⟩

/-- The public key of a private key: the base point times the clamped number. -/
def publicKey (key : PrivateKey) : PublicKey :=
  ⟨KeyBytes.ofNat (Curve.multiple Curve.base key.toKeyBytes.clamp.toNat)⟩

/-- What stands for a private key wherever it must not appear, in messages as in answers. -/
def redacted : String := "[REDACTED]"

/-- The text of a private key hides it, so that it cannot get into a message by mistake. -/
instance : ToString PrivateKey := ⟨fun _ => redacted⟩

/-- The text for messages, which is the same for every private key. -/
def shown (_ : PrivateKey) : String := s!"WgPrivateKey \x7b bytes: \"{redacted}\" \x7d"

/-- The text as a JSON value, which is the same for every private key. -/
def json (_ : PrivateKey) : String := s!"\"{redacted}\""

/-- The text of a private key and its public key for messages; only the second is told. -/
def shownPair (key : PrivateKey) : String :=
  s!"WgKeyPair \x7b private: {key.shown}, public: {key.publicKey.shown} \x7d"

end PrivateKey

end WireKeeper
