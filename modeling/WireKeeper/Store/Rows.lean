import WireKeeper.Bytes.Hex

/-! # Rows

The rows of a bucket: a finite map from keys to values, both strings of bytes, kept in increasing
order of the keys. Bytes are compared one by one from the front; a key comes before its extensions.

* `get?`, `insert`, `erase`: the operations of a finite map;
* `get?_insert`, `get?_erase`: what they do to every key. -/

namespace WireKeeper

/-- A key and its value, neither of which need be text. -/
abbrev Row := Bytes × Bytes

/-- The order of rows by their keys: byte by byte, with a key before its extensions. Values do not
matter. -/
def Row.Before (a b : Row) : Prop := a.1 < b.1

/-- Put a row in its place among sorted rows, instead of one with the same key. -/
def insertRow (key value : Bytes) : List Row → List Row
  | [] => [(key, value)]
  | r :: rs =>
    if key < r.1 then (key, value) :: r :: rs
    else if key = r.1 then (key, value) :: rs
    else r :: insertRow key value rs

/-- `r ∈ insertRow key value rs → r = (key, value) ∨ r ∈ rs`: a row of the result is the new one or
an old one. -/
theorem mem_insertRow {key value : Bytes} {rs : List Row} {r : Row}
    (h : r ∈ insertRow key value rs) : r = (key, value) ∨ r ∈ rs := by
  induction rs with
  | nil => simpa [insertRow] using h
  | cons x xs ih =>
    simp only [insertRow] at h
    split at h
    · simpa using h
    · split at h
      · rcases List.mem_cons.1 h with h | h
        · exact .inl h
        · exact .inr (List.mem_cons_of_mem _ h)
      · rcases List.mem_cons.1 h with h | h
        · exact .inr (h ▸ List.mem_cons_self)
        · exact (ih h).imp id (List.mem_cons_of_mem _)

/-- Inserting keeps rows sorted: `insertRow key value rs` is again in increasing order of the keys,
so no key is there twice. -/
theorem pairwise_insertRow {key value : Bytes} {rs : List Row} (h : rs.Pairwise Row.Before) :
    (insertRow key value rs).Pairwise Row.Before := by
  induction rs with
  | nil => simp [insertRow]
  | cons x xs ih =>
    obtain ⟨hx, hxs⟩ := List.pairwise_cons.1 h
    simp only [insertRow]
    -- the new row goes in front, replaces the first row, or goes somewhere behind it
    split
    · rename_i hlt
      refine List.pairwise_cons.2 ⟨fun r hr => ?_, h⟩
      rcases List.mem_cons.1 hr with rfl | hr
      · exact hlt
      · exact List.lt_trans hlt (hx r hr)
    · split
      · rename_i heq
        refine List.pairwise_cons.2 ⟨fun r hr => ?_, hxs⟩
        have := hx r hr
        simpa [Row.Before, heq] using this
      · rename_i hlt hne
        refine List.pairwise_cons.2 ⟨fun r hr => ?_, ih hxs⟩
        rcases mem_insertRow hr with rfl | hr
        · exact Std.lt_of_le_of_ne (List.not_lt.1 hlt) fun he => hne he.symm
        · exact hx r hr

/-- The rows of a bucket, with the proof that they are in increasing order of their keys. -/
structure Rows where
  toList : List Row
  sorted : toList.Pairwise Row.Before := by simp

namespace Rows

/-- No rows, which are in order trivially. -/
def empty : Rows := ⟨[], .nil⟩

/-- No rows are written `∅`. -/
instance : EmptyCollection Rows := ⟨empty⟩

/-- Rows are equal if their lists are, as there is only one order for them; so equality can be
decided. -/
instance : DecidableEq Rows := fun a b =>
  if h : a.toList = b.toList then
    .isTrue (by cases a; cases b; cases h; rfl)
  else .isFalse fun he => h (he ▸ rfl)

/-- The value under a key, or `none` if there is no row under it. -/
def get? (rows : Rows) (key : Bytes) : Option Bytes := rows.toList.lookup key

/-- Whether there is a row under a key, whatever its value. -/
def contains (rows : Rows) (key : Bytes) : Bool := (rows.get? key).isSome

/-- Write a value under a key, in the place of the row under it or of a new one. -/
def insert (rows : Rows) (key value : Bytes) : Rows :=
  ⟨insertRow key value rows.toList, pairwise_insertRow rows.sorted⟩

/-- Remove the row under a key; where there is none, nothing changes. -/
def erase (rows : Rows) (key : Bytes) : Rows :=
  ⟨rows.toList.filter fun r => r.1 ≠ key, rows.sorted.filter _⟩

/-- The keys in order, each of them once. -/
def keys (rows : Rows) : List Bytes := rows.toList.map Prod.fst

/-- `(∅ : Rows).toList = []`: the list of no rows is empty. -/
@[simp] theorem toList_empty : (∅ : Rows).toList = [] := rfl

/-- `(∅ : Rows).get? key = none`: among no rows there is none under any key. -/
@[simp] theorem get?_empty (key : Bytes) : (∅ : Rows).get? key = none := rfl

/-- `(rows.insert key value).toList = insertRow key value rows.toList`: writing is done on
the list. -/
@[simp] theorem toList_insert (rows : Rows) (key value : Bytes) :
    (rows.insert key value).toList = insertRow key value rows.toList := rfl

/-- `(rows.erase key).toList` is what the filter by the key leaves: removing is done on the list. -/
@[simp] theorem toList_erase (rows : Rows) (key : Bytes) :
    (rows.erase key).toList = rows.toList.filter fun r => r.1 ≠ key := rfl

/-- Looking up a key among rows, one of which comes first: `some x.2` for its key, and else what the
others say. -/
theorem lookup_row (key : Bytes) (x : Row) (xs : List Row) :
    (x :: xs).lookup key = if key = x.1 then some x.2 else xs.lookup key := by
  obtain ⟨k, v⟩ := x
  rw [List.lookup_cons]
  by_cases h : key = k
  · simp [h]
  · simp [beq_eq_false_iff_ne.2 h, h]

/-- `(rows.insert key value).get? other` is `some value` for `other = key`, and what it was for any
other key: inserting changes one key. -/
theorem get?_insert (rows : Rows) (key value other : Bytes) :
    (rows.insert key value).get? other = if other = key then some value else rows.get? other := by
  obtain ⟨rs, h⟩ := rows
  simp only [get?, toList_insert]
  clear h
  induction rs with
  | nil => simp [insertRow]
  | cons x xs ih =>
    simp only [insertRow]
    -- as in `insertRow`: in front, in the place of the first row, or behind it
    split
    · simp [lookup_row]
    · split
      · rename_i he
        by_cases h : other = key <;> simp [lookup_row, ← he, h]
      · rename_i he
        by_cases h : other = key
        · subst h
          simpa [lookup_row, he] using ih
        · simp only [lookup_row, ih, h, if_false]

/-- `(rows.erase key).get? other` is `none` for `other = key`, and what it was for any other key:
removing changes one key. -/
theorem get?_erase (rows : Rows) (key other : Bytes) :
    (rows.erase key).get? other = if other = key then none else rows.get? other := by
  obtain ⟨rs, h⟩ := rows
  simp only [get?, toList_erase]
  clear h
  induction rs with
  | nil => simp
  | cons x xs ih =>
    by_cases hx : x.1 = key
    · by_cases h : other = key
      · simpa [hx, h] using ih
      · simpa [hx, h, lookup_row] using ih
    · by_cases h : other = x.1
      · simp [hx, h, lookup_row]
      · simpa [hx, h, lookup_row] using ih

end Rows

end WireKeeper
