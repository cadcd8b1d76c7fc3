import WireKeeper.Bytes.Base64
import WireKeeper.Bytes.Utf8
import WireKeeper.Text.Basic

/-! # Authorized keys

A line of an authorized keys file: `[options] type data [comment]`, its words separated by blanks.
The data is the base64 text of a **blob** that begins with the length and the name of its own
**algorithm**; a key is its blob, so lines with different comments can mean the same key.

* `AuthorizedKey.parse` reads a line, `ToString` writes one;
* `AuthorizedKey.ofBlob` reads the algorithm back out of a blob. -/

namespace WireKeeper

/-- Why a line or a blob is no authorized key. Where several things are wrong with a line, the first
one in reading order counts. -/
inductive AuthorizedKeyError where
  /-- A blank line, a comment or a line without a key type. -/
  | empty
  /-- A line that ends with the key type. -/
  | missingBlob (declared : String)
  /-- Key data that is no base64. -/
  | notBase64 (reason : Base64.Error)
  /-- A blob that is shorter than the name at its start. -/
  | truncated
  /-- Two key types, one before the data and one inside. -/
  | algorithmMismatch (declared encoded : String)
  deriving DecidableEq, Repr

/-- The wording of an error. Where a name of a key type is part of it, it is shown as it stood in
the line or in the blob. -/
def AuthorizedKeyError.message : AuthorizedKeyError → String
  | .empty => "empty authorized key line"
  | .missingBlob declared => s!"missing key data after {declared}"
  | .notBase64 reason => s!"invalid key data: {reason.message}"
  | .truncated => "key data is truncated"
  | .algorithmMismatch declared encoded =>
    s!"key type {declared} does not match encoded type {encoded}"

/-- The algorithm a blob names at its start: a length of four bytes, then the name. `none` for a
blob that ends before the name does; a name that is no UTF-8 is read with replacements. -/
def blobAlgorithm? (blob : Bytes) : Option String :=
  let size := Bytes.toNat (blob.take 4)
  if blob.length < 4 + size then none else some (Utf8.decodeLossy ((blob.drop 4).take size))

/-- A key of an authorized keys file. Its algorithm is the one that the blob names, so the options
and the key type of a line are no part of it. -/
structure AuthorizedKey where
  algorithm : String
  blob : Bytes
  comment : String
  blobAlgorithm_eq : blobAlgorithm? blob = some algorithm
  deriving DecidableEq

namespace AuthorizedKey

/-- A key from its blob, with a comment. A blob that names no algorithm is refused as truncated. -/
def ofBlob (blob : Bytes) (comment : String) : Except AuthorizedKeyError AuthorizedKey :=
  match h : blobAlgorithm? blob with
  | some algorithm => .ok ⟨algorithm, blob, comment, h⟩
  | none => .error .truncated

/-- How the words begin that name a key type, those of keys on security tokens included. -/
def typeStarts : List (List Char) :=
  ["ssh-", "ecdsa-sha2-", "sk-ssh-", "sk-ecdsa-"].map String.toList

/-- Whether a word names a key type: it begins with one of the `typeStarts`, however it goes on. -/
def isKeyType (word : List Char) : Bool := typeStarts.any fun start => Text.startsWith start word

/-- Read a key from the words from the key type on. The words behind the data are its comment, with
one blank between each two, and the key type has to be the algorithm inside the data. -/
def ofFields : List (List Char) → Except AuthorizedKeyError AuthorizedKey
  | [] => .error .empty
  | [declared] => .error (.missingBlob (String.ofList declared))
  | declared :: data :: comment =>
    match Base64.decode (Utf8.encode data) with
    | .error e => .error (.notBase64 e)
    | .ok blob =>
      match ofBlob blob (String.ofList (Text.joinWith [' '] comment)) with
      | .error e => .error e
      | .ok key =>
        if key.algorithm.toList = declared then .ok key
        else .error (.algorithmMismatch (String.ofList declared) key.algorithm)

/-- Read a line: everything before the first word that names a key type is options, quoted or not. A
line whose first character is `#` is a comment. -/
def parseLine (line : List Char) : Except AuthorizedKeyError AuthorizedKey :=
  if (Text.trim line).head? = some '#' then .error .empty
  else ofFields ((Text.words line).dropWhile fun word => !isKeyType word)

/-- Read a line: `parseLine` of its characters. -/
def parse (line : String) : Except AuthorizedKeyError AuthorizedKey := parseLine line.toList

/-- A key as a line without options: its algorithm, the base64 text of its blob and, unless it is
empty, its comment. -/
def line (key : AuthorizedKey) : String :=
  let fields := key.algorithm ++ " " ++ Base64.encode key.blob
  if key.comment.isEmpty then fields else fields ++ " " ++ key.comment

/-- The text of a key is the line that is written for it. -/
instance : ToString AuthorizedKey := ⟨line⟩

/-- `k.blob = l.blob → k.comment = l.comment → k = l`: the algorithm is in the blob, so a key is
decided by its blob and its comment. -/
theorem ext_blob {k l : AuthorizedKey} (blob : k.blob = l.blob) (comment : k.comment = l.comment) :
    k = l := by
  obtain ⟨a, b, c, h⟩ := k
  obtain ⟨a', b', c', h'⟩ := l
  cases blob
  cases comment
  cases Option.some.inj (h.symm.trans h')
  rfl

end AuthorizedKey

end WireKeeper
