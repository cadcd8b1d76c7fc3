import WireKeeper.Store.Database
import WireKeeper.Text.Basic

/-! # The listing of a database

A database as text: a line for each row, with the name of its bucket, its key and its value, the
bytes in hexadecimal. An empty key or value has no digits, so a line always has two blanks.

* `Database.listing` writes the text;
* `Database.ofListing?` reads it. -/

namespace WireKeeper

/-- What a bucket is called in a listing; no two have the same word. -/
def Bucket.word : Bucket → String
  | credentials => "credentials"
  | peers => "peers"
  | server => "server"

/-- The buckets in the order of a listing, each of them once. -/
def Bucket.all : List Bucket := [.credentials, .peers, .server]

namespace Database

/-- The line of a row: its bucket, its key and its value, with a line end. -/
def listingLine (b : Bucket) (row : Row) : String :=
  " ".intercalate [b.word, Bytes.toHex row.1, Bytes.toHex row.2] ++ "\n"

/-- The text of a database, bucket by bucket; blocks and missing buckets are not in it. -/
def listing (db : Database) : String :=
  String.join (Bucket.all.flatMap fun b => (db.rows b).toList.map (listingLine b))

/-- Put the row of a line into a database; `none` for a line that is none. -/
def addLine? (db : Database) (line : List Char) : Option Database := do
  match line.splitOn ' ' with
  | [word, key, value] =>
    let b ← Bucket.all.find? fun b => b.word.toList = word
    let key ← Bytes.ofHexChars? key
    let value ← Bytes.ofHexChars? value
    (db.putRow b key value).toOption
  | _ => none

/-- Read the text of a database, where all buckets are there and block nothing. -/
def ofListing? (text : List Char) : Option Database :=
  (Text.lines text).foldlM addLine? empty

/-- The empty database has no rows to list: `empty.listing = ""`. -/
@[simp] theorem listing_empty : empty.listing = "" := by decide

/-- The empty text is the listing of the empty database: `ofListing? [] = some empty`. -/
@[simp] theorem ofListing?_empty : ofListing? [] = some empty := rfl

end Database

end WireKeeper
