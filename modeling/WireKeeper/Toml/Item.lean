/-! # TOML items

What a TOML document is made of, and how its tables grow while it is read.

An `Item` is a scalar, an array, a table or an array of tables. A table remembers its `Origin`,
which decides who may still add to it:

* a table written between braces is closed;
* a table that only the path of a header or of a key has named may still be given entries.

`Entries.update` changes the table at the end of a path, and `Entries.assign` puts one key and value
below a path. -/

namespace WireKeeper.Toml

/-- How a table came to be, which decides who may still put keys into it. -/
inductive Origin where
  /-- Written between braces. -/
  | inline
  /-- Opened by a header of its own. -/
  | header
  /-- Named on the way in the path of a header. -/
  | implied
  /-- Named on the way in a dotted key. -/
  | dotted
  deriving DecidableEq, Repr

/-- A value in a document. No setting is a float or a date, so that a value is one is kept, but not
which. -/
inductive Item where
  | string (text : String)
  | integer (value : Int)
  | float
  | boolean (value : Bool)
  | dateTime
  | array (items : List Item)
  | table (origin : Origin) (entries : List (String × Item))
  /-- The tables of headers in double brackets, in order. -/
  | tables (items : List Item)
  deriving Repr

/-- The keys and values of a table, in the order in which they were put there. No key is there
twice. -/
abbrev Entries := List (String × Item)

namespace Entries

/-- Whether a key is there, with whatever value: `(entries.lookup key).isSome`. -/
def has (entries : Entries) (key : String) : Bool := (entries.lookup key).isSome

/-- Replace the value of a key that is there; the key keeps its place among the others. -/
def replace (entries : Entries) (key : String) (item : Item) : Entries :=
  entries.map fun e => if e.1 = key then (key, item) else e

/-- Add a key that is not there, behind all others: `entries ++ [(key, item)]`. -/
def append (entries : Entries) (key : String) (item : Item) : Entries := entries ++ [(key, item)]

/-- Change the table at the end of a path; tables missing on the way are made, `dotted` ones for a
key and `implied` ones for a header.

The path of a header goes through any table but an inline one and through the last table of an array
of tables. A dotted key goes neither through an inline table nor through one that has a header. -/
def update (byKey : Bool) (change : Origin → Entries → Option Entries) :
    List String → Origin → Entries → Option Entries
  | [], origin, entries => change origin entries
  | key :: path, _, entries =>
    match entries.lookup key with
    | none => do
      let origin := if byKey then Origin.dotted else .implied
      let inner ← update byKey change path origin []
      some (append entries key (.table origin inner))
    | some (.table origin inner) =>
      -- an inline table is closed, and a table with a header belongs to its header
      if origin = .inline || byKey && origin = .header then none
      else do
        let inner ← update byKey change path origin inner
        some (replace entries key (.table origin inner))
    | some (.tables items) =>
      match items.getLast? with
      | some (.table origin inner) => do
        let inner ← update byKey change path origin inner
        some (replace entries key (.tables (items.dropLast ++ [.table origin inner])))
      | _ => none
    | some _ => none

/-- Put a key and its value below a path of keys. The key must be new, and a path leads only to a
table that dotted keys have made, not to one that a header has named. -/
def assign (entries : Entries) (path : List String) (key : String) (item : Item) :
    Option Entries :=
  update true (fun origin inner =>
    if (origin = .dotted) = path.isEmpty || has inner key then none
    else some (append inner key item)) path .header entries

/-- Put keys and values one after the other; `none` as soon as one of them cannot be put, as with a
key that is there twice. -/
def fill (entries : Entries) (pairs : List (List String × String × Item)) : Option Entries :=
  pairs.foldlM (fun entries (path, key, item) => assign entries path key item) entries

/-- Give a table a header. A table has one header at most, so a second one is refused; before that,
only a header of one of its own tables may have named it. -/
def open? (entries : Entries) (key : String) : Option Entries :=
  match entries.lookup key with
  | none => some []
  | some (.table .implied inner) => some inner
  | some _ => none

/-- Put a table with a header at a key, in the place of the one that was there or behind
all others. -/
def close (entries : Entries) (key : String) (inner : Entries) : Entries :=
  let item := Item.table .header inner
  if has entries key then replace entries key item else append entries key item

/-- Add one more table to the array of tables at a key, which is made if the key is new. A key with
another value takes no table. -/
def push? (entries : Entries) (key : String) (inner : Entries) : Option Entries :=
  let item := Item.table .header inner
  match entries.lookup key with
  | none => some (append entries key (.tables [item]))
  | some (.tables items) => some (replace entries key (.tables (items ++ [item])))
  | some _ => none

/-- Without keys and values to put, a table stays as it is: `fill entries [] = some entries`. -/
@[simp] theorem fill_nil (entries : Entries) : fill entries [] = some entries := rfl

/-- In an empty table every header is the first of its name, so its table begins empty: `open? []
key = some []`. -/
@[simp] theorem open?_nil (key : String) : open? [] key = some [] := rfl

end Entries

end WireKeeper.Toml
