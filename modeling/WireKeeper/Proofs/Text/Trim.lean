import WireKeeper.Text.Basic

/-! # Trimming

What trimming leaves begins and ends with no blank, and a text of which that is true is left as it
is. Blanks at either end make no difference.

* `Trimmed`, `trim_eq_self_iff`, `trimmed_trim`: texts without blanks at their ends;
* `trim_blanks_append`, `trim_append_blanks`, `trim_dropReturn`: blanks at either end;
* `trim_append_cons`: what is on either side of a character that is not blank;
* `trim_eq_nil_iff`: texts of which nothing is left;
* `IsCore`, `isCore_iff`: what is left, said without removing anything;
* `mem_of_mem_trim`, `length_trim_le`: trimming only removes. -/

namespace WireKeeper.Text

/-- A text that neither begins nor ends with a blank; the empty text is one. -/
def Trimmed (s : List Char) : Prop :=
  (∀ c ∈ s.head?, isBlank c = false) ∧ ∀ c ∈ s.getLast?, isBlank c = false

/-- Only the two ends have to be looked at to find out whether a text is trimmed. -/
instance (s : List Char) : Decidable (Trimmed s) :=
  @instDecidableAnd _ _ (Option.decidableForallMem _) (Option.decidableForallMem _)

variable {s t : List Char} {c : Char}

/-- Without blanks at all there are none at the ends. -/
theorem trimmed_of_forall (h : ∀ c ∈ s, isBlank c = false) : Trimmed s :=
  ⟨fun c hc => h c (List.mem_of_mem_head? hc), fun c hc => h c (List.mem_of_mem_getLast? hc)⟩

/-- Nothing is removed at the start exactly when the first character is none of those that are. -/
theorem dropWhile_eq_self_iff {p : Char → Bool} :
    s.dropWhile p = s ↔ ∀ c ∈ s.head?, p c = false := by
  cases s with
  | nil => simp
  | cons x xs =>
    simp only [List.head?_cons, Option.mem_some_iff, forall_eq']
    by_cases hx : p x = true
    · -- the result is shorter
      rw [List.dropWhile_cons_of_pos hx, hx]
      have hlength := (List.dropWhile_sublist p (l := xs)).length_le
      refine ⟨fun h => ?_, fun h => by cases h⟩
      rw [h, List.length_cons] at hlength
      omega
    · rw [List.dropWhile_cons_of_neg hx]
      simp [hx]

/-- Nothing is removed at the end exactly when the last character is none of those that are. -/
theorem reverse_dropWhile_eq_self_iff {p : Char → Bool} :
    (s.reverse.dropWhile p).reverse = s ↔ ∀ c ∈ s.getLast?, p c = false := by
  rw [List.reverse_eq_iff, dropWhile_eq_self_iff, List.head?_reverse]

/-- Trimming the start leaves a text as it is exactly when it does not begin with a blank. -/
theorem trimStart_eq_self_iff : trimStart s = s ↔ ∀ c ∈ s.head?, isBlank c = false :=
  dropWhile_eq_self_iff

/-- Trimming the end leaves a text as it is exactly when it does not end with a blank. -/
theorem trimEnd_eq_self_iff : trimEnd s = s ↔ ∀ c ∈ s.getLast?, isBlank c = false :=
  reverse_dropWhile_eq_self_iff

/-- Removing at the end is removing at the start of the reversed text. -/
theorem trimEnd_eq_reverse (s : List Char) : trimEnd s = (trimStart s.reverse).reverse := rfl

/-- What is left after removing at the start does not begin with a blank. -/
theorem isBlank_of_head?_trimStart (h : c ∈ (trimStart s).head?) : isBlank c = false := by
  have hfirst := List.head?_dropWhile_not isBlank s
  rw [show (s.dropWhile isBlank).head? = some c from h] at hfirst
  simpa using hfirst

/-- What is left after removing at the end does not end with a blank. -/
theorem isBlank_of_getLast?_trimEnd (h : c ∈ (trimEnd s).getLast?) : isBlank c = false := by
  rw [trimEnd_eq_reverse, List.getLast?_reverse] at h
  exact isBlank_of_head?_trimStart h

/-- What is left after removing at the end is a part of the text from its start on. -/
theorem trimEnd_isPrefix (s : List Char) : trimEnd s <+: s := by
  have hsuffix : trimStart s.reverse <:+ s.reverse := List.dropWhile_suffix isBlank
  rw [trimEnd_eq_reverse]
  exact List.reverse_suffix.1 (by rwa [List.reverse_reverse])

/-- What trimming leaves is a part of the text in one piece. -/
theorem trim_isInfix (s : List Char) : trim s <:+: s :=
  (trimEnd_isPrefix _).isInfix.trans (List.dropWhile_suffix isBlank).isInfix

/-- Trimming only removes: every character that is left was there before. -/
theorem mem_of_mem_trim (h : c ∈ trim s) : c ∈ s := (trim_isInfix s).subset h

/-- Trimming makes no text longer. -/
theorem length_trim_le (s : List Char) : (trim s).length ≤ s.length := (trim_isInfix s).length_le

/-- What trimming leaves has no blanks at its ends, whatever the text. -/
theorem trimmed_trim (s : List Char) : Trimmed (trim s) := by
  refine ⟨fun c hc => ?_, fun c hc => isBlank_of_getLast?_trimEnd hc⟩
  -- the first character is that of the text before its end was trimmed
  obtain ⟨rest, hrest⟩ := trimEnd_isPrefix (trimStart s)
  have hhead : c ∈ (trimStart s).head? := by
    rw [← hrest, List.head?_append]
    rw [show (trimEnd (trimStart s)).head? = some c from hc]
    rfl
  exact isBlank_of_head?_trimStart hhead

/-- Exactly the texts without blanks at their ends are left as they are. -/
theorem trim_eq_self_iff : trim s = s ↔ Trimmed s := by
  constructor
  · exact fun h => h ▸ trimmed_trim s
  · rintro ⟨hhead, hlast⟩
    rw [trim, trimStart_eq_self_iff.2 hhead, trimEnd_eq_self_iff.2 hlast]

/-- A text without blanks at its ends is left as it is. -/
theorem Trimmed.trim_eq (h : Trimmed s) : trim s = s := trim_eq_self_iff.2 h

/-- A blank in front makes no difference to what trimming leaves. -/
theorem trim_blank_cons (hc : isBlank c = true) (s : List Char) : trim (c :: s) = trim s := by
  rw [trim, trimStart, List.dropWhile_cons_of_pos hc]
  rfl

/-- Blanks in front make no difference, however many they are. -/
theorem trim_blanks_append (ht : ∀ c ∈ t, isBlank c = true) (s : List Char) :
    trim (t ++ s) = trim s := by
  induction t with
  | nil => rfl
  | cons x xs ih =>
    rw [List.cons_append, trim_blank_cons (ht x List.mem_cons_self),
      ih fun c hc => ht c (List.mem_cons_of_mem x hc)]

/-- A blank at the end makes no difference to removing there. -/
theorem trimEnd_concat_blank (hc : isBlank c = true) (s : List Char) :
    trimEnd (s ++ [c]) = trimEnd s := by
  rw [trimEnd, List.reverse_append, List.reverse_singleton, List.singleton_append,
    List.dropWhile_cons_of_pos hc]
  rfl

/-- A blank behind makes no difference to what trimming leaves. -/
theorem trim_concat_blank (hc : isBlank c = true) (s : List Char) : trim (s ++ [c]) = trim s := by
  induction s with
  | nil => rw [List.nil_append, trim_blank_cons hc]
  | cons x xs ih =>
    by_cases hx : isBlank x = true
    · rw [List.cons_append, trim_blank_cons hx, trim_blank_cons hx, ih]
    · -- nothing is removed in front any more
      rw [trim, trim, trimStart, trimStart, List.cons_append, List.dropWhile_cons_of_neg hx,
        List.dropWhile_cons_of_neg hx, ← List.cons_append, trimEnd_concat_blank hc]

/-- Blanks behind make no difference, however many they are. -/
theorem trim_append_blanks (ht : ∀ c ∈ t, isBlank c = true) (s : List Char) :
    trim (s ++ t) = trim s := by
  induction t generalizing s with
  | nil => rw [List.append_nil]
  | cons x xs ih =>
    rw [List.append_cons, ih (fun c hc => ht c (List.mem_cons_of_mem x hc)),
      trim_concat_blank (ht x List.mem_cons_self)]

/-- Of blanks nothing is left. -/
theorem trim_blanks (ht : ∀ c ∈ t, isBlank c = true) : trim t = [] := trim_append_blanks ht []

/-- What is removed at the end is blanks, and what is left stands in front of them. -/
theorem exists_blanks (s : List Char) :
    ∃ blanks, (∀ c ∈ blanks, isBlank c = true) ∧ s = trimEnd s ++ blanks := by
  refine ⟨(s.reverse.takeWhile isBlank).reverse, fun c hc => ?_, ?_⟩
  · exact List.all_eq_true.1 List.all_takeWhile c (List.mem_reverse.1 hc)
  · rw [trimEnd, ← List.reverse_append, List.takeWhile_append_dropWhile, List.reverse_reverse]

/-- A carriage return at the end makes no difference, since it is a blank. -/
theorem trim_dropReturn (s : List Char) : trim (dropReturn s) = trim s := by
  rw [dropReturn]
  split
  · next h =>
    obtain ⟨front, rfl⟩ := List.getLast?_eq_some_iff.1 h
    rw [List.dropLast_concat, trim_concat_blank (by decide)]
  · rfl

/-- What begins with a character that is not blank still does with more behind it. -/
theorem isBlank_of_head?_append (h : s.head?.any (fun c => !isBlank c) = true) :
    ∀ c ∈ (s ++ t).head?, isBlank c = false := by
  cases s with
  | nil => cases h
  | cons x xs =>
    intro c hc
    cases hc
    simpa using h

/-- What ends with a character that is not blank still does with more in front of it. -/
theorem isBlank_of_getLast?_append (h : t.getLast?.any (fun c => !isBlank c) = true) :
    ∀ c ∈ (s ++ t).getLast?, isBlank c = false := by
  intro c hc
  rw [List.getLast?_append] at hc
  cases hlast : t.getLast? with
  | none =>
    rw [hlast] at h
    cases h
  | some x =>
    rw [hlast] at h hc
    cases hc
    simpa using h

/-- Nothing is removed at the end up to a character that is not blank. -/
theorem trimEnd_append_cons (hc : isBlank c = false) (s t : List Char) :
    trimEnd (s ++ c :: t) = s ++ c :: trimEnd t := by
  rw [trimEnd, List.reverse_append, List.reverse_cons, List.append_assoc, List.dropWhile_append]
  cases ht : t.reverse.dropWhile isBlank with
  | nil => simp [trimEnd, ht, hc]
  | cons x xs => simp [trimEnd, ht]

/-- A text that begins with a character that is not blank still does when it is trimmed. -/
theorem trim_cons_of_not_blank (hc : isBlank c = false) (s : List Char) :
    trim (c :: s) = c :: trimEnd s := by
  have hstart : trimStart (c :: s) = c :: s := List.dropWhile_cons_of_neg (by simp [hc])
  rw [trim, hstart]
  exact trimEnd_append_cons hc [] s

/-- Around a character that is not blank, each side is trimmed at its own end. -/
theorem trim_append_cons (hc : isBlank c = false) (s t : List Char) :
    trim (s ++ c :: t) = trimStart s ++ c :: trimEnd t := by
  induction s with
  | nil => exact trim_cons_of_not_blank hc t
  | cons x xs ih =>
    by_cases hx : isBlank x = true
    · rw [List.cons_append, trim_blank_cons hx, ih, trimStart, trimStart,
        List.dropWhile_cons_of_pos hx]
    · rw [List.cons_append, trim_cons_of_not_blank (by simpa using hx),
        trimEnd_append_cons hc, trimStart, List.dropWhile_cons_of_neg hx, List.cons_append]

/-- Nothing is left of a text exactly when it consists of blanks only. -/
theorem trim_eq_nil_iff : trim s = [] ↔ ∀ c ∈ s, isBlank c = true := by
  refine ⟨fun h c hc => Decidable.byContradiction fun hblank => ?_, trim_blanks⟩
  obtain ⟨front, back, rfl⟩ := List.append_of_mem hc
  rw [trim_append_cons (Bool.eq_false_iff.2 hblank)] at h
  exact List.append_ne_nil_of_right_ne_nil _ (List.cons_ne_nil _ _) h

/-- Trimming the end first makes no difference to what trimming leaves. -/
theorem trim_trimEnd (s : List Char) : trim (trimEnd s) = trim s := by
  obtain ⟨blanks, hblanks, hs⟩ := exists_blanks s
  calc trim (trimEnd s) = trim (trimEnd s ++ blanks) := (trim_append_blanks hblanks _).symm
    _ = trim s := by rw [← hs]

/-- Trimming the start first makes no difference to what trimming leaves. -/
theorem trim_trimStart (s : List Char) : trim (trimStart s) = trim s := by
  have hblanks : ∀ c ∈ s.takeWhile isBlank, isBlank c = true :=
    fun c hc => List.all_eq_true.1 List.all_takeWhile c hc
  calc trim (trimStart s) = trim (s.takeWhile isBlank ++ s.dropWhile isBlank) :=
        (trim_blanks_append hblanks _).symm
    _ = trim s := by rw [List.takeWhile_append_dropWhile]

/-- A text without the blanks around it, said without removing anything. -/
structure IsCore (core s : List Char) : Prop where
  trimmed : Trimmed core
  surrounded : ∃ front back, (∀ c ∈ front, isBlank c = true) ∧ (∀ c ∈ back, isBlank c = true) ∧
    s = front ++ core ++ back

/-- Every text has one core, which is what trimming leaves: `IsCore t s ↔ t = trim s`. -/
theorem isCore_iff : IsCore t s ↔ t = trim s := by
  constructor
  · rintro ⟨htrimmed, front, back, hfront, hback, rfl⟩
    rw [trim_append_blanks hback, trim_blanks_append hfront, htrimmed.trim_eq]
  · rintro rfl
    obtain ⟨back, hback, hs⟩ := exists_blanks (trimStart s)
    refine ⟨trimmed_trim s, s.takeWhile isBlank, back, ?_, hback, ?_⟩
    · exact fun c hc => List.all_eq_true.1 List.all_takeWhile c hc
    · rw [trim, List.append_assoc, ← hs]
      exact List.takeWhile_append_dropWhile.symm

end WireKeeper.Text
