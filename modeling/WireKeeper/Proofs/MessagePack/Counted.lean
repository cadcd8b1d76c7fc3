import WireKeeper.MessagePack.Value
import WireKeeper.Proofs.Bytes.Number

/-! # What is read can be counted

The length of a string and the count in front of an array have at most four bytes, so that nothing
that was read is longer than these can say.

`WasRead v` says that some bytes were read as `v`.

* `WasRead.content`: a string and an array that were read are short, and what stands inside was read
  as well;
* `WasRead.fields`: so were the fields of a record that was read. -/

namespace WireKeeper

namespace MessagePack

/-! ## Taking from the front -/

/-- As many bytes are taken as were asked for, or none at all. -/
theorem length_of_takeBytes {n : Nat} {bs taken rest : Bytes}
    (h : takeBytes n bs = some (taken, rest)) : taken.length = n := by
  induction n generalizing bs taken with
  | zero =>
    cases h
    rfl
  | succ n ih =>
    cases bs with
    | nil => cases h
    | cons b bs =>
      rw [takeBytes] at h
      split at h
      · next heq =>
        cases h
        rw [List.length_cons, ih heq]
      · cases h

/-- A number of some bytes has no more bits than they: it is below `2 ^ (8 * size)`. -/
theorem lt_of_takeNat {size n : Nat} {bs rest : Bytes} (h : takeNat size bs = some (n, rest)) :
    n < twoPow (8 * size) := by
  obtain ⟨⟨taken, tail⟩, htake, hn⟩ := Option.map_eq_some_iff.1 h
  cases hn
  rw [← length_of_takeBytes htake]
  exact Bytes.toNat_lt taken

/-- A length or a count of at most four bytes is small: it is below `2 ^ 32`. -/
theorem lt_of_takeNat_of_le {size n : Nat} {bs rest : Bytes}
    (h : takeNat size bs = some (n, rest)) (hsize : size ≤ 4) : n < twoPow 32 :=
  Nat.lt_of_lt_of_le (lt_of_takeNat h)
    (Nat.pow_le_pow_right (by decide) (Nat.mul_le_mul_left 8 hsize))

/-- What is read in a row: as many as were asked for, each of them read from some place of the
bytes. -/
theorem mem_of_readMany {α : Type} {one : Bytes → Option (α × Bytes)} {n : Nat} {bs rest : Bytes}
    {as : List α} (h : readMany one n bs = some (as, rest)) :
    as.length = n ∧ ∀ a ∈ as, ∃ front tail, one front = some (a, tail) := by
  induction n generalizing bs as with
  | zero =>
    cases h
    exact ⟨rfl, fun a ha => absurd ha List.not_mem_nil⟩
  | succ n ih =>
    rw [readMany] at h
    split at h
    · cases h
    · next b bs hone =>
      split at h
      · cases h
      · next bs' tail hmany =>
        cases h
        obtain ⟨hlength, hmem⟩ := ih hmany
        refine ⟨by rw [List.length_cons, hlength], fun a ha => ?_⟩
        rcases List.mem_cons.1 ha with rfl | ha
        · exact ⟨_, _, hone⟩
        · exact hmem a ha

/-- The second of a pair was read by itself, from what the first one left. -/
theorem snd_of_readPair {α : Type} {one : Bytes → Option (α × Bytes)} {bs rest : Bytes} {p : α × α}
    (h : readPair one bs = some (p, rest)) : ∃ front tail, one front = some (p.2, tail) := by
  rw [readPair] at h
  split at h
  · cases h
  · split at h
    · cases h
    · next hone =>
      cases h
      exact ⟨_, _, hone⟩

namespace Value

/-! ## Contents -/

/-- A value **was read** if some bytes are read as it, at some depth and with some rest. -/
def WasRead (v : Value) : Prop := ∃ depth bytes rest, read depth bytes = some (v, rest)

/-- What is known of a value that was read: a string and an array are short, and what stands inside
an array or a map was read. -/
def Content : Value → Prop
  | text bytes => bytes.length < twoPow 32
  | binary bytes => bytes.length < twoPow 32
  | array items => items.length < twoPow 32 ∧ ∀ v ∈ items, WasRead v
  | map entries => ∀ e ∈ entries, WasRead e.2
  | _ => True

/-- Lengths and counts are small, and of short bytes something is made that has content of the known
kind. -/
def Lead.Bounded : Lead → Prop
  | .done v => v.Content
  | .bytes size make => size < twoPow 32 ∧ ∀ bs, bs.length < twoPow 32 → (make bs).Content
  | .sized size extra make =>
    size ≤ 4 ∧ ∀ bs, bs.length < twoPow 32 + extra → (make bs).Content
  | .items count => count < twoPow 32
  | .countedItems size => size ≤ 4
  | _ => True

/-- Every first byte announces something of this kind, as a length or a count has at most four
bytes. -/
theorem lead_bounded (n : Nat) : (lead n).Bounded := by
  have hsmall : ∀ k < 0xC0, k < twoPow 32 := fun k hk => Nat.lt_trans hk (by decide)
  unfold lead
  split
  · trivial
  split
  · trivial
  split
  · exact hsmall _ (by omega)
  split
  · exact ⟨hsmall _ (by omega), fun _ h => h⟩
  split
  · trivial
  split <;> first
    | exact ⟨by decide, fun _ h => h⟩
    | exact ⟨hsmall _ (by decide), fun _ _ => trivial⟩
    | exact ⟨by decide, fun _ _ => trivial⟩
    | exact Nat.le.refl
    | exact Nat.le.step (Nat.le.step Nat.le.refl)
    | trivial

/-- Where a value came from: the first byte, and what was read behind it. -/
theorem WasRead.lead {v : Value} (h : WasRead v) :
    ∃ depth bs n rest, readLead (read depth) bs (lead n) = some (v, rest) := by
  obtain ⟨depth, bytes, rest, h⟩ := h
  cases depth with
  | zero => cases h
  | succ depth =>
    cases bytes with
    | nil => cases h
    | cons b bs => exact ⟨depth, bs, b.toNat, rest, (Option.filter_eq_some_iff.1 h).1⟩

/-- The content of a value that was read, by what its first byte announced. -/
theorem WasRead.content {v : Value} (h : WasRead v) : v.Content := by
  obtain ⟨depth, bs, n, rest, h⟩ := h.lead
  have hbounded := lead_bounded n
  -- an array and a map come in two forms each, with the count in the first byte or behind it
  have ofItems : ∀ {count bs as tail}, count < twoPow 32 →
      readMany (read depth) count bs = some (as, tail) → (array as).Content := by
    intro count bs as tail hcount hmany
    obtain ⟨hlength, hmem⟩ := mem_of_readMany hmany
    exact ⟨hlength ▸ hcount, fun v hv => ⟨depth, hmem v hv⟩⟩
  have ofPairs : ∀ {count bs as tail},
      readMany (readPair (read depth)) count bs = some (as, tail) → (map as).Content := by
    intro count bs as tail hmany e he
    obtain ⟨front, tail, hpair⟩ := (mem_of_readMany hmany).2 e he
    exact ⟨depth, snd_of_readPair hpair⟩
  -- what the first byte announces is bounded, and what is read behind it is made of that
  cases hl : Value.lead n <;> rw [hl] at h hbounded <;> simp only [readLead] at h
  case done v =>
    cases h
    exact hbounded
  case bytes size make =>
    obtain ⟨p, htake, hp⟩ := Option.map_eq_some_iff.1 h
    cases hp
    exact hbounded.2 p.1 (length_of_takeBytes htake ▸ hbounded.1)
  case sized lengthSize extra make =>
    obtain ⟨q, hsize, h⟩ := Option.bind_eq_some_iff.1 h
    obtain ⟨p, htake, hp⟩ := Option.bind_eq_some_iff.1 h
    cases hp
    refine hbounded.2 p.1 ?_
    rw [length_of_takeBytes htake]
    exact Nat.add_lt_add_right (lt_of_takeNat_of_le hsize hbounded.1) extra
  case items count =>
    obtain ⟨p, hmany, hp⟩ := Option.map_eq_some_iff.1 h
    cases hp
    exact ofItems hbounded hmany
  case pairs count =>
    obtain ⟨p, hmany, hp⟩ := Option.map_eq_some_iff.1 h
    cases hp
    exact ofPairs hmany
  case countedItems size =>
    obtain ⟨q, hcount, h⟩ := Option.bind_eq_some_iff.1 h
    obtain ⟨p, hmany, hp⟩ := Option.bind_eq_some_iff.1 h
    cases hp
    exact ofItems (lt_of_takeNat_of_le hcount hbounded) hmany
  case countedPairs size =>
    obtain ⟨q, -, h⟩ := Option.bind_eq_some_iff.1 h
    obtain ⟨p, hmany, hp⟩ := Option.bind_eq_some_iff.1 h
    cases hp
    exact ofPairs hmany
  case reserved => cases h

/-! ## Fields of records -/

/-- The fields of a map are values of its entries, so nothing in them is new. -/
theorem mem_of_mapFields? {names : List String} {entries : List (Value × Value)}
    {fields : List (Nat × Value)} (h : mapFields? names entries = some fields) :
    ∀ f ∈ fields, ∃ e ∈ entries, e.2 = f.2 := by
  induction entries generalizing fields with
  | nil =>
    cases h
    exact fun f hf => absurd hf List.not_mem_nil
  | cons e es ih =>
    obtain ⟨key, value⟩ := e
    obtain ⟨i, -, h⟩ := Option.bind_eq_some_iff.1 h
    obtain ⟨others, hothers, h⟩ := Option.bind_eq_some_iff.1 h
    -- an entry of another name is left out, and one of a wanted name comes first
    have hmem : ∀ f ∈ others, ∃ e ∈ (key, value) :: es, e.2 = f.2 := fun f hf => by
      obtain ⟨e, he, hef⟩ := ih hothers f hf
      exact ⟨e, List.mem_cons_of_mem _ he, hef⟩
    split at h
    · split at h
      · cases h
      · cases h
        intro f hf
        rcases List.mem_cons.1 hf with rfl | hf
        · exact ⟨(key, value), List.mem_cons_self, rfl⟩
        · exact hmem f hf
    · cases h
      exact hmem

/-- The fields of a record that was read were read, whether it was an array or a map with names. -/
theorem WasRead.fields {v : Value} (hv : WasRead v) {names : List String}
    {fields : List (Option Value)} (h : v.asFields? names = some fields) {w : Value}
    (hw : some w ∈ fields) : WasRead w := by
  have hcontent := hv.content
  cases v <;> try cases h
  -- an array has its fields by their places, and a map has them by their names
  case array items =>
    rw [asFields?] at h
    split at h
    · cases h
      obtain ⟨u, hu, he⟩ := List.mem_map.1 hw
      cases he
      exact hcontent.2 w hu
    · cases h
  case map entries =>
    obtain ⟨named, hnamed, h⟩ := Option.bind_eq_some_iff.1 h
    cases h
    obtain ⟨i, -, hi⟩ := List.mem_map.1 hw
    obtain ⟨l₁, l₂, hl, -⟩ := List.lookup_eq_some_iff.1 hi
    have hmem : (i, w) ∈ named := hl ▸ List.mem_append_right l₁ List.mem_cons_self
    obtain ⟨e, he, hew⟩ := mem_of_mapFields? hnamed (i, w) hmem
    rw [← show e.2 = w from hew]
    exact hcontent e he

end Value

end MessagePack

end WireKeeper
