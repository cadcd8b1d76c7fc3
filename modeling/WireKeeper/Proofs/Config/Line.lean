import WireKeeper.Config.Section
import WireKeeper.Proofs.Text.Trim

/-! # What one line of a configuration file is

A title, an entry and a comment are read as what they were written from, but for blanks around a
value and for signs and blanks at the start of a comment.

* `Line.read_eq_entry_iff`: the lines with an equals sign that are entries;
* `Line.read_heading`, `Line.read_entry`, `Line.read_comment`: lines as they are written;
* `commentText_eq_self_iff`: the **clean** texts, the lines that are left as they are in a comment;
* `mem_of_read_comment`, `mem_of_read_entry`: reading only removes. -/

namespace WireKeeper.Config

open Text (trim trimStart trimEnd isBlank Trimmed dropReturn)

/-- A **clean** text has no line feed, begins with neither a number sign nor a blank and does not
end with a blank. -/
def Clean (s : List Char) : Prop :=
  '\n' ∉ s ∧ (∀ c ∈ s.head?, c ≠ '#' ∧ isBlank c = false) ∧ ∀ c ∈ s.getLast?, isBlank c = false

/-- Whether a text is clean is decided by its characters. -/
instance (s : List Char) : Decidable (Clean s) :=
  @instDecidableAnd _ _ inferInstance <|
    @instDecidableAnd _ _ (Option.decidableForallMem _) (Option.decidableForallMem _)

/-- A clean text is trimmed, as it neither begins nor ends with a blank. -/
theorem Clean.trimmed {s : List Char} (h : Clean s) : Trimmed s :=
  ⟨fun c hc => (h.2.1 c hc).2, h.2.2⟩

namespace Line

variable {s t raw key value : List Char} {c : Char}

/-- What a line is does not depend on blanks around it: lines with the same `trim` are
read alike. -/
theorem read_congr (h : trim s = trim t) : read s = read t := by rw [read, read, h]

/-- A carriage return at its end does not make a line another one, as it is a blank. -/
@[simp] theorem read_dropReturn (s : List Char) : read (dropReturn s) = read s :=
  read_congr (Text.trim_dropReturn s)

/-- The empty line is blank. -/
@[simp] theorem read_nil : read [] = .blank := rfl

/-! ## Titles and entries -/

/-- A title in brackets is read as the title without blanks around it: `read ('[' :: title ++ [']'])
= .heading (trim title)`. -/
theorem read_heading (title : List Char) :
    read ('[' :: title ++ [']']) = .heading (trim title) := by
  have htrimmed : Trimmed ('[' :: title ++ [']']) := by
    refine ⟨fun c hc => ?_, fun c hc => ?_⟩
    · cases hc
      decide
    · rw [List.getLast?_concat] at hc
      cases hc
      decide
  have htrim := htrimmed.trim_eq
  rw [read, htrim]
  simp [readTrimmed, bracketed?]

/-- A text is cut at the first of its equals signs, or of any other character `c`: in `s ++ c :: t`
at the one shown, if `s` has none. -/
theorem cutFirst_append (hs : c ∉ s) (t : List Char) :
    Text.cutFirst c (s ++ c :: t) = some (s, t) := by
  induction s with
  | nil => simp [Text.cutFirst]
  | cons x xs ih =>
    have hx : ¬ x = c := fun h => hs (h ▸ List.mem_cons_self)
    simp [Text.cutFirst, hx, ih fun h => hs (List.mem_cons_of_mem x h)]

/-- Whether the parts of a line before and behind its first equals sign are a key and a value: a
number sign or a semicolon begins a comment, and brackets around the whole line make it a title. -/
def OpensEntry (key value : List Char) : Prop :=
  (∀ c ∈ (trimStart key).head?, c ≠ '#' ∧ c ≠ ';') ∧
    ¬((trimStart key).head? = some '[' ∧ (trimEnd value).getLast? = some ']')

/-- A line that begins with neither sign of a comment is a title, if it stands in brackets, an
entry, if it has an equals sign, or neither of them. -/
theorem readTrimmed_cons (hsign : c ≠ '#') (hsemicolon : c ≠ ';') (rest : List Char) :
    readTrimmed (c :: rest) =
      match bracketed? (c :: rest) with
      | some title => .heading (trim title)
      | none =>
        match Text.cutFirst '=' (c :: rest) with
        | some (key, value) => .entry (trim key) (trim value)
        | none => .other (c :: rest) := by
  rw [readTrimmed.eq_def]
  split
  · next heq =>
    cases heq
    exact absurd rfl hsign
  · next heq =>
    cases heq
    exact absurd rfl hsemicolon
  · rfl

/-- A line in brackets begins with `[` and ends with `]`, and what is between them is its title; one
character alone is not both. -/
theorem bracketed?_cons (c : Char) (rest : List Char) :
    bracketed? (c :: rest) =
      if c = '[' ∧ rest.getLast? = some ']' then some rest.dropLast else none := by
  by_cases hc : c = '['
  · subst hc
    simp [bracketed?]
  · rw [if_neg fun h => hc h.1, bracketed?]
    rintro rest' ⟨⟩
    exact hc rfl

/-- A line with an equals sign is an entry if and only if its parts are a key and a value, and then
it is read as these without blanks around them. -/
theorem read_eq_entry_iff (hkey : '=' ∉ key) {k v : List Char} :
    read (key ++ '=' :: value) = .entry k v ↔
      OpensEntry key value ∧ k = trim key ∧ v = trim value := by
  have hcut : Text.cutFirst '=' (trimStart key ++ '=' :: trimEnd value) =
      some (trimStart key, trimEnd value) :=
    cutFirst_append (fun h => hkey ((List.dropWhile_sublist isBlank).subset h)) _
  have hentry : Line.entry (trim (trimStart key)) (trim (trimEnd value)) = .entry k v ↔
      k = trim key ∧ v = trim value := by
    rw [Text.trim_trimStart, Text.trim_trimEnd, Line.entry.injEq, eq_comm, @eq_comm _ _ v]
  rw [read, Text.trim_append_cons (by decide), OpensEntry]
  -- what the line begins with decides: the equals sign itself, the sign of a comment, or a bracket
  -- that is closed at its end or is not
  cases hstart : trimStart key with
  | nil =>
    rw [hstart] at hcut hentry
    show readTrimmed ('=' :: trimEnd value) = _ ↔ _
    rw [readTrimmed_cons (by decide) (by decide),
      show bracketed? ('=' :: trimEnd value) = none from rfl,
      show Text.cutFirst '=' ('=' :: trimEnd value) = _ from hcut]
    simpa using hentry
  | cons x xs =>
    rw [hstart] at hcut hentry
    show readTrimmed (x :: (xs ++ '=' :: trimEnd value)) = _ ↔ _
    by_cases hx : x = '#' ∨ x = ';'
    · have hcomment : ∃ text, readTrimmed (x :: (xs ++ '=' :: trimEnd value)) = .comment text := by
        rcases hx with rfl | rfl
        · exact ⟨_, rfl⟩
        · exact ⟨_, rfl⟩
      obtain ⟨text, htext⟩ := hcomment
      rw [htext]
      constructor
      · intro h
        cases h
      · rintro ⟨⟨hsigns, -⟩, -⟩
        obtain ⟨hsign, hsemicolon⟩ := hsigns x rfl
        exact (hx.elim hsign hsemicolon).elim
    · obtain ⟨hsign, hsemicolon⟩ := not_or.1 hx
      have hlast : (xs ++ '=' :: trimEnd value).getLast? = some ']' ↔
          (trimEnd value).getLast? = some ']' := by
        rw [List.getLast?_append, List.getLast?_cons]
        cases (trimEnd value).getLast? <;> simp
      rw [readTrimmed_cons hsign hsemicolon, bracketed?_cons]
      by_cases hbrackets : x = '[' ∧ (xs ++ '=' :: trimEnd value).getLast? = some ']'
      · rw [if_pos hbrackets]
        constructor
        · intro h
          cases h
        · rintro ⟨⟨-, hnone⟩, -⟩
          exact absurd ⟨congrArg some hbrackets.1, hlast.1 hbrackets.2⟩ hnone
      · rw [if_neg hbrackets, show Text.cutFirst '=' (x :: (xs ++ _)) = _ from hcut]
        rw [hlast] at hbrackets
        simpa [hsign, hsemicolon, hbrackets] using hentry

/-- Whether a text can begin an entry: a number sign, a semicolon or a bracket begins a line of
another kind. -/
def BeginsEntry (key : List Char) : Prop := ∀ c ∈ key.head?, c ≠ '#' ∧ c ≠ ';' ∧ c ≠ '['

/-- Whether a text can begin an entry is decided by its first character. -/
instance (key : List Char) : Decidable (BeginsEntry key) := Option.decidableForallMem _

/-- A key, an equals sign and a value are read as an entry, whatever the value is, if the key begins
one. -/
theorem read_entry (hkey : '=' ∉ key) (hbegins : BeginsEntry (trimStart key))
    (value : List Char) : read (key ++ '=' :: value) = .entry (trim key) (trim value) :=
  (read_eq_entry_iff hkey).2 ⟨⟨fun c hc => ⟨(hbegins c hc).1, (hbegins c hc).2.1⟩,
    fun h => (hbegins _ h.1).2.2 rfl⟩, rfl, rfl⟩

/-! ## Comments -/

/-- Blanks at its end are no part of a comment: `commentText (trimEnd s) = commentText s`. -/
theorem commentText_trimEnd (s : List Char) : commentText (trimEnd s) = commentText s := by
  obtain ⟨blanks, hblanks, hs⟩ := Text.exists_blanks s
  conv => rhs; rw [hs]
  rw [commentText, commentText, List.dropWhile_append]
  by_cases hempty : ((trimEnd s).dropWhile fun c => c == '#' || c == ' ').isEmpty = true
  · -- the signs may go on into the blanks, of which nothing is left anyway
    have hrest : ∀ c ∈ blanks.dropWhile fun c => c == '#' || c == ' ', isBlank c = true :=
      fun c hc => hblanks c ((List.dropWhile_sublist _).subset hc)
    rw [if_pos hempty, Text.trim_blanks hrest, List.isEmpty_iff.1 hempty, Text.trim_nil]
  · rw [if_neg hempty, Text.trim_append_blanks hblanks]

/-- A number sign begins a comment, whatever stands behind it. -/
theorem read_sign (s : List Char) : read ('#' :: s) = .comment (commentText s) := by
  rw [read, Text.trim_cons_of_not_blank (by decide)]
  show Line.comment (commentText (trimEnd s)) = _
  rw [commentText_trimEnd]

/-- A comment as it is written, with a blank behind its sign, is read as what stands behind the
blank. -/
theorem read_comment (s : List Char) : read ('#' :: ' ' :: s) = .comment (commentText s) := by
  rw [read_sign, commentText, commentText, List.dropWhile_cons_of_pos (by decide)]

/-- What a comment says is a part of it, so it has no characters of its own. -/
theorem mem_of_mem_commentText (h : c ∈ commentText s) : c ∈ s :=
  (List.dropWhile_sublist _).subset (Text.mem_of_mem_trim h)

/-- Exactly the clean lines are left as they are in a comment: `commentText s = s ↔ Clean s` for
every line `s`. -/
theorem commentText_eq_self_iff (hfeed : '\n' ∉ s) : commentText s = s ↔ Clean s := by
  constructor
  · intro h
    have htrimmed : Trimmed s := h ▸ Text.trimmed_trim _
    refine ⟨hfeed, fun c hc => ⟨?_, htrimmed.1 c hc⟩, htrimmed.2⟩
    -- a number sign in front would be gone
    rintro rfl
    obtain ⟨rest, rfl⟩ := List.head?_eq_some_iff.1 hc
    have hlength : (commentText ('#' :: rest)).length ≤ rest.length := by
      rw [commentText, List.dropWhile_cons_of_pos (by decide)]
      exact Nat.le_trans (Text.length_trim_le _) (List.dropWhile_sublist _).length_le
    rw [h, List.length_cons] at hlength
    omega
  · intro h
    have hdrop : s.dropWhile (fun c => c == '#' || c == ' ') = s := by
      cases s with
      | nil => rfl
      | cons x xs =>
        obtain ⟨hsign, hblank⟩ := h.2.1 x rfl
        have hspace : x ≠ ' ' := by
          rintro rfl
          cases hblank
        exact List.dropWhile_cons_of_neg (by simp [hsign, hspace])
    rw [commentText, hdrop, h.trimmed.trim_eq]

/-! ## Parts of a line -/

/-- What is read from a trimmed line as a comment is a part of it, character by character. -/
theorem mem_of_readTrimmed_comment (h : readTrimmed s = .comment t) (hc : c ∈ t) : c ∈ s := by
  rw [readTrimmed.eq_def] at h
  split at h
  · cases h
    exact List.mem_cons_of_mem _ (mem_of_mem_commentText hc)
  · cases h
    exact List.mem_cons_of_mem _ (mem_of_mem_commentText hc)
  · split at h
    · cases h
    · split at h <;> cases h

/-- The value that is read from a trimmed line is a part of it, character by character. -/
theorem mem_of_readTrimmed_entry (h : readTrimmed s = .entry key value) (hc : c ∈ value) :
    c ∈ s := by
  rw [readTrimmed.eq_def] at h
  split at h
  · cases h
  · cases h
  · split at h
    · cases h
    · split at h
      · next hcut =>
        cases h
        rw [Text.eq_of_cutFirst hcut]
        exact List.mem_append_right _ (List.mem_cons_of_mem _ (Text.mem_of_mem_trim hc))
      · cases h

/-- What is read as a comment is a part of the line, so a line without line feeds has none in its
comment. -/
theorem mem_of_read_comment (h : read raw = .comment t) (hc : c ∈ t) : c ∈ raw := by
  rw [read] at h
  split at h
  · cases h
  · next htrim => exact Text.mem_of_mem_trim (htrim ▸ mem_of_readTrimmed_comment h hc)

/-- The value that is read from a line is a part of it, so a line without line feeds has none in its
value. -/
theorem mem_of_read_entry (h : read raw = .entry key value) (hc : c ∈ value) : c ∈ raw := by
  rw [read] at h
  split at h
  · cases h
  · next htrim => exact Text.mem_of_mem_trim (htrim ▸ mem_of_readTrimmed_entry h hc)

/-! ## Lines without effect -/

/-- Whether a line is a comment or blank, and so begins no section and is no entry. -/
def isRemark : Line → Bool
  | .blank => true
  | .comment _ => true
  | _ => false

/-- The comment that stands after a line, when another one stood before it: the later one counts. -/
def remark (before : Option (List Char)) : Line → Option (List Char)
  | .comment text => some text
  | _ => before

end Line

end WireKeeper.Config
