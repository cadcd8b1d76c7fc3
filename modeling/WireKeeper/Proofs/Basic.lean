import Mathlib.Data.List.Basic
import Mathlib.Data.List.Forall2

/-! # Steps that can fail, and lists that are searched

What a sequence of steps gives, its steps gave; and what is read from a list one by one, was read
from its items. A list of pairs, from which those with one key are left out, is searched for a key,
and a list is searched from behind.

* `bind_eq_ok`, `bind_eq_error`: two steps that succeed, or fail;
* `ite_error_eq_ok`: a guard that is passed;
* `mapError_eq_ok`, `mapError_eq_error`: errors in other words;
* `exists_of_map_ok`, `exists_of_toOption_map`, `exists_eq_ok_of_isSome`: a success that something
  is made or seen of;
* `mapM_map_pure`, `mapM_of_forall₂`, `mapM_congr_forall₂`: a list of which it is known what its
  items are read as;
* `mapM_ok_cons`, `mapM_error_cons`: a list that is read, or is not, by its first item;
* `mapM_eq_error`: a list that is not read, by the item at which reading stops;
* `mem_of_mapM_ok`, `map_of_mapM_ok`, `length_of_mapM_ok`: what is read from a list;
* `exists_mapM_ok`, `exists_of_mapM_ok`: a list is read if and only if each of its items is;
* `mapM_zipIdx_ok`: the same when the numbers of the items stand in the errors;
* `lookup_filter`, `lookup_filter_self`: a key beside the one that is left out, and that one;
* `findRev?_concat`: searched from behind, the last item comes first. -/

namespace WireKeeper

/-- What two steps give, each of them gave: `x >>= f` is `b` if and only if `x` is some `a` and `f
a` is `b`. A longer sequence is taken apart with it step by step. -/
theorem bind_eq_ok {ε α β : Type} {x : Except ε α} {f : α → Except ε β} {b : β} :
    x >>= f = .ok b ↔ ∃ a, x = .ok a ∧ f a = .ok b := by
  cases x with
  | error e =>
    constructor
    · intro h
      cases h
    · rintro ⟨a, h, -⟩
      cases h
  | ok a =>
    constructor
    · exact fun h => ⟨a, rfl, h⟩
    · rintro ⟨a', h, hb⟩
      cases h
      exact hb

/-- Two steps fail with `e` if and only if the first one does, or the first one gives some `a` and
the second one fails on it. -/
theorem bind_eq_error {ε α β : Type} {x : Except ε α} {f : α → Except ε β} {e : ε} :
    x >>= f = .error e ↔ x = .error e ∨ ∃ a, x = .ok a ∧ f a = .error e := by
  cases x with
  | error e' =>
    constructor
    · intro h
      cases h
      exact .inl rfl
    · rintro (h | ⟨a, h, -⟩)
      · cases h
        rfl
      · cases h
  | ok a =>
    constructor
    · exact fun h => .inr ⟨a, rfl, h⟩
    · rintro (h | ⟨a', h, he⟩)
      · cases h
      · cases h
        exact he

/-- What is behind a guard is given if and only if the fault of the guard is not there: `¬p`, and
what follows gives `a`. -/
theorem ite_error_eq_ok {ε α : Type} {p : Prop} [Decidable p] {e : ε} {x : Except ε α} {a : α} :
    (if p then .error e else x) = .ok a ↔ ¬p ∧ x = .ok a := by
  by_cases h : p
  · rw [if_pos h]
    exact ⟨fun herror => (nomatch herror), fun hpassed => absurd h hpassed.1⟩
  · rw [if_neg h]
    exact ⟨fun hx => ⟨h, hx⟩, And.right⟩

/-- What is made of the result of a step is made of what it gave: `x.map f = .ok b` comes from some
`a` with `f a = b`. -/
theorem exists_of_map_ok {ε α β : Type} {x : Except ε α} {f : α → β} {b : β}
    (h : x.map f = .ok b) : ∃ a, x = .ok a ∧ f a = b := by
  cases x with
  | error e => cases h
  | ok a => exact ⟨a, rfl, Except.ok.inj h⟩

/-- An error in other words is no success: `x.mapError f` is `a` if and only if `x` is. -/
theorem mapError_eq_ok {ε ε' α : Type} {x : Except ε α} {f : ε → ε'} {a : α} :
    x.mapError f = .ok a ↔ x = .ok a := by
  cases x <;> simp [Except.mapError]

/-- An error in other words is the same error: `x.mapError f` fails with the image under `f` of what
`x` fails with. -/
theorem mapError_eq_error {ε ε' α : Type} {x : Except ε α} {f : ε → ε'} {e : ε'} :
    x.mapError f = .error e ↔ ∃ e', x = .error e' ∧ f e' = e := by
  cases x <;> simp [Except.mapError]

/-- What is seen of the result of a step is seen of what it gave. With it a fixed run is evaluated
once, and its parts are named afterwards. -/
theorem exists_of_toOption_map {ε α β : Type} {x : Except ε α} {f : α → β} {b : β}
    (h : x.toOption.map f = some b) : ∃ a, x = .ok a ∧ f a = b := by
  cases x with
  | error e => cases h
  | ok a => exact ⟨a, rfl, Option.some.inj h⟩

/-- A result of which it is seen that it is a success is the pair of what it gave and of the state
it left. -/
theorem exists_eq_ok_of_isSome {ε α β : Type} {r : Except ε α × β}
    (h : r.1.toOption.isSome = true) : ∃ a b, r = (.ok a, b) := by
  obtain ⟨x, b⟩ := r
  cases x with
  | error e => cases h
  | ok a => exact ⟨a, b, rfl⟩

/-- Reading a list one by one, when each of its items is read: if `f (g a) = pure (h a)` for all
`a`, the list of all `g a` is read as the list of all `h a`. -/
theorem mapM_map_pure {m : Type → Type} [Monad m] [LawfulMonad m] {α β γ : Type} {f : β → m γ}
    {g : α → β} {h : α → γ} (hf : ∀ a, f (g a) = pure (h a)) (l : List α) :
    (l.map g).mapM f = pure (l.map h) := by
  rw [List.mapM_map, show f ∘ g = fun a => pure (h a) from funext hf, List.mapM_pure]

/-- Reading a list one by one, when it is known what each of its items is read as: the items of
`l'`, in their order. -/
theorem mapM_of_forall₂ {m : Type → Type} [Monad m] [LawfulMonad m] {α β : Type} {f : α → m β}
    {l : List α} {l' : List β} (h : List.Forall₂ (fun b a => f a = pure b) l' l) :
    l.mapM f = pure l' := by
  induction h with
  | nil => rfl
  | cons hitem _ ih => rw [List.mapM_cons, hitem, ih, pure_bind, pure_bind]

/-- Lists whose items are read alike one by one are read alike as a whole, errors included. -/
theorem mapM_congr_forall₂ {ε α β : Type} {f : α → Except ε β} {l l' : List α}
    (h : List.Forall₂ (fun a a' => f a' = f a) l l') : l'.mapM f = l.mapM f := by
  induction h with
  | nil => rfl
  | cons hitem _ ih => rw [List.mapM_cons, List.mapM_cons, hitem, ih]

/-- What is read from a list has the length of the list, where reading gives an `Option`. -/
theorem length_of_mapM_some {α β : Type} {f : α → Option β} {l : List α} {l' : List β}
    (h : l.mapM f = some l') : l'.length = l.length := by
  induction l generalizing l' with
  | nil =>
    cases h
    rfl
  | cons a as ih =>
    rw [List.mapM_cons] at h
    obtain ⟨b, -, h⟩ := Option.bind_eq_some_iff.1 h
    obtain ⟨bs, hbs, h⟩ := Option.bind_eq_some_iff.1 h
    cases h
    rw [List.length_cons, List.length_cons, ih hbs]

/-- Reading a list that begins with an item: the item is read as some `b`, the rest as some `bs`,
and the list as `b :: bs`. -/
theorem mapM_ok_cons {ε α β : Type} {f : α → Except ε β} {a : α} {as : List α} {l : List β} :
    (a :: as).mapM f = .ok l ↔ ∃ b bs, f a = .ok b ∧ as.mapM f = .ok bs ∧ l = b :: bs := by
  rw [List.mapM_cons, bind_eq_ok]
  constructor
  · rintro ⟨b, hb, h⟩
    obtain ⟨bs, hbs, h⟩ := bind_eq_ok.1 h
    cases h
    exact ⟨b, bs, hb, hbs, rfl⟩
  · rintro ⟨b, bs, hb, hbs, rfl⟩
    exact ⟨b, hb, bind_eq_ok.2 ⟨bs, hbs, rfl⟩⟩

/-- Reading a list that begins with an item fails at that item, or the item is read and reading
fails behind it with the same error. -/
theorem mapM_error_cons {ε α β : Type} {f : α → Except ε β} {a : α} {as : List α} {e : ε} :
    (a :: as).mapM f = .error e ↔
      f a = .error e ∨ (∃ b, f a = .ok b) ∧ as.mapM f = .error e := by
  rw [List.mapM_cons, bind_eq_error]
  refine or_congr_right ⟨?_, ?_⟩
  · rintro ⟨b, hb, h⟩
    obtain h | ⟨bs, -, h⟩ := bind_eq_error.1 h
    · exact ⟨⟨b, hb⟩, h⟩
    · cases h
  · rintro ⟨⟨b, hb⟩, h⟩
    exact ⟨b, hb, bind_eq_error.2 (.inl h)⟩

/-- Reading a list fails if and only if it fails at some item, in front of which all is read. What
stands behind the item has no say in it. -/
theorem mapM_eq_error {ε α β : Type} {f : α → Except ε β} {l : List α} {e : ε} :
    l.mapM f = .error e ↔
      ∃ front a back bs, l = front ++ a :: back ∧ front.mapM f = .ok bs ∧ f a = .error e := by
  induction l with
  | nil =>
    constructor
    · intro h
      cases h
    · rintro ⟨front, a, back, -, hl, -⟩
      exact absurd hl (by simp)
  | cons x xs ih =>
    rw [mapM_error_cons]
    constructor
    · rintro (hx | ⟨⟨b, hb⟩, hxs⟩)
      · exact ⟨[], x, xs, [], rfl, rfl, hx⟩
      · obtain ⟨front, a, back, bs, rfl, hfront, ha⟩ := ih.1 hxs
        exact ⟨x :: front, a, back, b :: bs, rfl, mapM_ok_cons.2 ⟨b, bs, hb, hfront, rfl⟩, ha⟩
    · rintro ⟨front, a, back, bs, hl, hfront, ha⟩
      -- the item is the first one or stands behind it
      cases front with
      | nil =>
        cases hl
        exact .inl ha
      | cons y ys =>
        cases hl
        obtain ⟨b, bs', hb, hys, -⟩ := mapM_ok_cons.1 hfront
        exact .inr ⟨⟨b, hb⟩, ih.2 ⟨ys, a, back, bs', rfl, hys, ha⟩⟩

/-- What is read from a list, seen through functions that agree on each item: if `g b = k a`
whenever `a` is read as `b`, then `l'.map g = l.map k`. -/
theorem map_of_mapM_ok {ε α β γ : Type} {f : α → Except ε β} {g : β → γ} {k : α → γ}
    (hf : ∀ a b, f a = .ok b → g b = k a) {l : List α} {l' : List β} (h : l.mapM f = .ok l') :
    l'.map g = l.map k := by
  induction l generalizing l' with
  | nil =>
    cases h
    rfl
  | cons a as ih =>
    obtain ⟨b, bs, hb, hbs, rfl⟩ := mapM_ok_cons.1 h
    rw [List.map_cons, List.map_cons, hf a b hb, ih hbs]

/-- What is read from a list has the length of the list, where reading may fail with an error. -/
theorem length_of_mapM_ok {ε α β : Type} {f : α → Except ε β} {l : List α} {l' : List β}
    (h : l.mapM f = .ok l') : l'.length = l.length := by
  have := map_of_mapM_ok (g := fun _ => ()) (k := fun _ => ()) (fun _ _ _ => rfl) h
  rw [← List.length_map, this, List.length_map]

/-- What is read from a list was read from its items: `b ∈ l'` if and only if some `a ∈ l` is read
as `b`. -/
theorem mem_of_mapM_ok {ε α β : Type} {f : α → Except ε β} {l : List α} {l' : List β}
    (h : l.mapM f = .ok l') {b : β} : b ∈ l' ↔ ∃ a ∈ l, f a = .ok b := by
  induction l generalizing l' with
  | nil =>
    cases h
    simp
  | cons a as ih =>
    obtain ⟨b', bs, hb', hbs, rfl⟩ := mapM_ok_cons.1 h
    rw [List.mem_cons, ih hbs]
    -- an item is the first one or one of the others, on both sides; the first is read in one way
    -- only
    constructor
    · rintro (rfl | ⟨c, hc, hcb⟩)
      · exact ⟨a, List.mem_cons_self, hb'⟩
      · exact ⟨c, List.mem_cons_of_mem a hc, hcb⟩
    · rintro ⟨c, hc, hcb⟩
      rcases List.mem_cons.1 hc with rfl | hc
      · exact .inl (Except.ok.inj (hcb.symm.trans hb'))
      · exact .inr ⟨c, hc, hcb⟩

/-- A list that is read has items that are read, every one of them. -/
theorem exists_of_mapM_ok {ε α β : Type} {f : α → Except ε β} {l : List α} {l' : List β}
    (h : l.mapM f = .ok l') : ∀ a ∈ l, ∃ b, f a = .ok b := by
  induction l generalizing l' with
  | nil => exact fun a ha => absurd ha List.not_mem_nil
  | cons x xs ih =>
    obtain ⟨b, bs, hb, hbs, -⟩ := mapM_ok_cons.1 h
    intro a ha
    rcases List.mem_cons.1 ha with rfl | ha
    · exact ⟨b, hb⟩
    · exact ih hbs a ha

/-- A list is read if each of its items is; what it is read as is not said here. -/
theorem exists_mapM_ok {ε α β : Type} {f : α → Except ε β} {l : List α}
    (h : ∀ a ∈ l, ∃ b, f a = .ok b) : ∃ l', l.mapM f = .ok l' := by
  induction l with
  | nil => exact ⟨[], rfl⟩
  | cons a as ih =>
    obtain ⟨b, hb⟩ := h a List.mem_cons_self
    obtain ⟨bs, hbs⟩ := ih fun c hc => h c (List.mem_cons_of_mem a hc)
    exact ⟨b :: bs, mapM_ok_cons.2 ⟨b, bs, hb, hbs, rfl⟩⟩

/-- A list whose items are read with their numbers is read as `l'` if and only if each item is read
as the one beside it. Numbers stand in errors only, so they do not matter to a list that is read. -/
theorem mapM_zipIdx_ok {ε ε' α β : Type} {f : α → Except ε β} {g : Nat → ε → ε'} {l : List α}
    {n : Nat} {l' : List β} :
    (l.zipIdx n).mapM (fun (a, i) => (f a).mapError (g i)) = .ok l' ↔
      List.Forall₂ (fun a b => f a = .ok b) l l' := by
  induction l generalizing n l' with
  | nil =>
    rw [List.forall₂_nil_left_iff]
    exact ⟨fun h => (Except.ok.inj h).symm, fun h => h ▸ rfl⟩
  | cons a as ih =>
    rw [List.zipIdx_cons, mapM_ok_cons, List.forall₂_cons_left_iff]
    refine exists_congr fun b => exists_congr fun bs => ?_
    rw [ih, mapError_eq_ok]

/-! ## Looking things up -/

section Lookup

/-- Searched from behind, a list shows its last item first: `l ++ [a]` gives `a` if `p a`, and what
`l` gives otherwise. -/
theorem findRev?_concat {α : Type} (p : α → Bool) (l : List α) (a : α) :
    (l ++ [a]).findRev? p = if p a then some a else l.findRev? p := by
  rw [List.findRev?_eq_find?_reverse, List.findRev?_eq_find?_reverse, List.reverse_concat,
    List.find?_cons]
  cases p a <;> rfl

variable {κ α : Type} [BEq κ] [LawfulBEq κ] [DecidableEq κ] {l : List (κ × α)} {key other : κ}

/-- Leaving a key out does not change what is found under the others: for `other ≠ key` the list
without `key` shows the same. -/
theorem lookup_filter (hne : other ≠ key) :
    (l.filter (·.1 ≠ key)).lookup other = l.lookup other := by
  induction l with
  | nil => rfl
  | cons x l ih =>
    obtain ⟨k, a⟩ := x
    by_cases hk : k = key
    · have hother : (other == k) = false := beq_false_of_ne fun heq => hne (heq.trans hk)
      rw [List.filter_cons_of_neg (by simpa using hk), ih, List.lookup_cons, hother]
    · rw [List.filter_cons_of_pos (by simpa using hk), List.lookup_cons, List.lookup_cons, ih]

/-- Nothing is found under a key that is left out, even if it stood in the list more than once. -/
theorem lookup_filter_self : (l.filter (·.1 ≠ key)).lookup key = none := by
  rw [List.lookup_eq_none_iff]
  intro x hx
  have hne : x.1 ≠ key := by simpa using (List.mem_filter.1 hx).2
  exact bne_iff_ne.2 hne.symm

end Lookup

end WireKeeper
