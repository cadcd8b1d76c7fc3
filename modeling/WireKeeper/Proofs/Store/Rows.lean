import Mathlib.Data.List.Sort
import WireKeeper.Store.Rows

/-! # Rows are decided by their lookups

Sorted rows with the same value under every key are the same rows, so that changes of rows can be
compared one key at a time.

* `ext_get?`: rows with the same lookups are the same;
* `erase_insert`, `insert_erase`, `insert_of_get?`: changes that take each other back. -/

namespace WireKeeper

/-- No row stands before itself. -/
instance : Std.Irrefl Row.Before := ⟨fun r => List.lt_irrefl r.1⟩

/-- Of two rows, at most one stands before the other. -/
instance : Std.Antisymm Row.Before := ⟨fun _ _ hab hba => absurd hba (List.lt_asymm hab)⟩

namespace Rows

/-- A value is found under a key if and only if there is a row of both. -/
theorem get?_eq_some_iff {rows : Rows} {key value : Bytes} :
    rows.get? key = some value ↔ (key, value) ∈ rows.toList := by
  obtain ⟨rs, h⟩ := rows
  show rs.lookup key = some value ↔ (key, value) ∈ rs
  induction rs with
  | nil => simp
  | cons x xs ih =>
    obtain ⟨hx, hxs⟩ := List.pairwise_cons.1 h
    rw [lookup_row, List.mem_cons]
    split
    · next hkey =>
      -- a row behind the first one has a greater key
      subst hkey
      constructor
      · intro hv
        exact .inl (Prod.ext rfl (Option.some.inj hv).symm)
      · rintro (hv | hv)
        · rw [← hv]
        · exact absurd (hx _ hv) (List.lt_irrefl x.1)
    · next hkey =>
      rw [ih hxs]
      constructor
      · exact .inr
      · rintro (hv | hv)
        · exact absurd (congrArg Prod.fst hv) hkey
        · exact hv

/-- Rows with the same value under every key are the same, since both are sorted. -/
theorem ext_get? {a b : Rows} (h : ∀ key, a.get? key = b.get? key) : a = b := by
  have hmem : ∀ r, r ∈ a.toList ↔ r ∈ b.toList := by
    rintro ⟨key, value⟩
    rw [← get?_eq_some_iff, ← get?_eq_some_iff, h]
  -- the order leaves one list for the same rows
  have hlist := a.sorted.eq_of_mem_iff b.sorted hmem
  cases a
  cases b
  cases hlist
  rfl

/-- The keys are different, since the rows are sorted by them. -/
theorem keys_nodup (rows : Rows) : rows.keys.Nodup := by
  refine List.pairwise_map.2 (rows.sorted.imp ?_)
  intro a b hab hkey
  rw [Row.Before, hkey] at hab
  exact List.lt_irrefl _ hab

/-- A row is not there if and only if its key has no value. -/
theorem contains_eq_false {rows : Rows} {key : Bytes} :
    rows.contains key = false ↔ rows.get? key = none := by
  rw [contains, Option.isSome_eq_false_iff, Option.isNone_iff_eq_none]

/-- After writing a row, it is there beside the others. -/
theorem contains_insert {rows : Rows} {key other value : Bytes} :
    (rows.insert key value).contains other = true ↔ other = key ∨ rows.contains other = true := by
  rw [contains, get?_insert]
  by_cases h : other = key
  · rw [if_pos h]
    exact ⟨fun _ => .inl h, fun _ => rfl⟩
  · rw [if_neg h]
    exact ⟨.inr, fun hor => hor.resolve_left h⟩

/-- After removing a row, the others are there and it is not. -/
theorem contains_erase {rows : Rows} {key other : Bytes} :
    (rows.erase key).contains other = true ↔ other ≠ key ∧ rows.contains other = true := by
  rw [contains, get?_erase]
  by_cases h : other = key
  · rw [if_pos h]
    exact ⟨fun hsome => (nomatch hsome), fun hand => absurd h hand.1⟩
  · rw [if_neg h]
    exact ⟨fun hsome => ⟨h, hsome⟩, fun hand => hand.2⟩

/-- Removing a new row takes the insertion back: `(rows.insert key value).erase key = rows`. -/
theorem erase_insert {rows : Rows} {key : Bytes} (h : rows.get? key = none) (value : Bytes) :
    (rows.insert key value).erase key = rows := by
  refine ext_get? fun other => ?_
  rw [get?_erase, get?_insert]
  split
  · next hkey => rw [hkey, h]
  · rfl

/-- Removing a row makes no difference when it is written anew. -/
theorem insert_erase (rows : Rows) (key value : Bytes) :
    (rows.erase key).insert key value = rows.insert key value := by
  refine ext_get? fun other => ?_
  rw [get?_insert, get?_insert, get?_erase]
  split <;> rfl

/-- Writing what is there changes nothing. -/
theorem insert_of_get? {rows : Rows} {key value : Bytes} (h : rows.get? key = some value) :
    rows.insert key value = rows := by
  refine ext_get? fun other => ?_
  rw [get?_insert]
  split
  · next hkey => rw [hkey, h]
  · rfl

/-- Removing a row that is not there changes nothing. -/
theorem erase_of_get? {rows : Rows} {key : Bytes} (h : rows.get? key = none) :
    rows.erase key = rows := by
  refine ext_get? fun other => ?_
  rw [get?_erase]
  split
  · next hkey => rw [hkey, h]
  · rfl

/-- A removed row is not there. -/
theorem get?_erase_self (rows : Rows) (key : Bytes) : (rows.erase key).get? key = none := by
  rw [get?_erase, if_pos rfl]

/-- A written row is there, with the value that was written. -/
theorem get?_insert_self (rows : Rows) (key value : Bytes) :
    (rows.insert key value).get? key = some value := by
  rw [get?_insert, if_pos rfl]

end Rows

end WireKeeper
