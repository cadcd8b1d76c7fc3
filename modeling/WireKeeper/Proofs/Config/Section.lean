import Mathlib.Data.List.TakeWhile
import WireKeeper.Proofs.Basic
import WireKeeper.Proofs.Config.Line
import WireKeeper.Proofs.Text.Lines

/-! # Sections are read back

A file is read as the sections it was written from, as long as no title, key or value has a line
feed, and every comment is **tame**: each of its lines is a comment or blank. Then a value is read
without the blanks around it, and of a comment its last line is read.

With a comment that is not tame other sections or entries are read, or none: a line that is neither
a comment nor blank begins a section or is an entry, and so it is one more than were written.

* `readAll_writeAll`: what a file with tame comments is read as;
* `readAll_forged`: an entry in a comment becomes one of the section in front;
* `readAll_writeAll_iff`: the same titles and entries are read exactly when every comment is tame;
* `feedless_of_readAll`: what is read has no line feeds. -/

namespace WireKeeper.Config

open Text (trim trimStart isBlank Trimmed lines dropReturn)

namespace Section

variable {s : Section} {ss later : List Section} {comment : Option (List Char)}
  {text rest : List Char} {es : List Entry} {ls rs : List (List Char)} {number : Nat}
  {inside : Bool}

/-! ## Comments -/

/-- The lines of the comment in front of a title, as they are written: none for no name and for an
empty one. -/
def remarks : Option (List Char) → List (List Char)
  | none => []
  | some [] => []
  | some text => ('#' :: ' ' :: text).splitOn '\n'

/-- A comment is **tame** if each of its lines is a comment or blank, so that none is taken for a
title or an entry. -/
def Tame (comment : Option (List Char)) : Prop :=
  ∀ l ∈ remarks comment, (Line.read l).isRemark = true

/-- Whether a comment is tame is decided by reading its lines. -/
instance (comment : Option (List Char)) : Decidable (Tame comment) :=
  inferInstanceAs (Decidable (∀ _ ∈ _, _))

/-- The comment that stands after some lines, when another one stood before them: the last one among
them. -/
def lastRemark (before : Option (List Char)) (ls : List (List Char)) : Option (List Char) :=
  ls.foldl (fun comment l => (Line.read l).remark comment) before

/-- A written comment is its lines, in front of those of what stands behind it. -/
theorem lines_writeComment (comment : Option (List Char)) (rest : List Char) :
    lines (writeComment comment ++ rest) = (remarks comment).map dropReturn ++ lines rest := by
  rcases comment with _ | _ | ⟨c, cs⟩
  · rfl
  · rfl
  · have hfeeds := Text.lines_append_feeds ('#' :: ' ' :: c :: cs) rest
    simpa [writeComment, remarks] using hfeeds

/-- Lines that are comments or blank are passed over, and what stands after them is the last comment
among them: reading goes on with `lastRemark`. -/
theorem readFrom_remarks (h : ∀ l ∈ rs, (Line.read l).isRemark = true) (number : Nat)
    (inside : Bool) (comment : Option (List Char)) (ls : List (List Char)) :
    readFrom number inside comment (rs.map dropReturn ++ ls) =
      readFrom (number + rs.length) inside (lastRemark comment rs) ls := by
  induction rs generalizing number comment with
  | nil => rfl
  | cons r rs ih =>
    have hr : (Line.read r).isRemark = true := h r List.mem_cons_self
    have hrs := ih (fun l hl => h l (List.mem_cons_of_mem r hl)) (number + 1)
    have hcount : number + (rs.length + 1) = number + 1 + rs.length := by omega
    rw [List.map_cons, List.cons_append, readFrom, Line.read_dropReturn, List.length_cons, hcount]
    -- a remark is blank or a comment, and the other kinds are none
    cases hread : Line.read r with
    | blank => simp [hrs, lastRemark, hread, Line.remark]
    | comment text => simp [hrs, lastRemark, hread, Line.remark]
    | heading title => simp [hread, Line.isRemark] at hr
    | entry key value => simp [hread, Line.isRemark] at hr
    | other text => simp [hread, Line.isRemark] at hr

/-- A comment of one line is tame, as a number sign stands in front of it. -/
theorem tame_of_not_mem (h : ∀ text ∈ comment, '\n' ∉ text) : Tame comment := by
  rcases comment with _ | _ | ⟨c, cs⟩
  · simp [Tame, remarks]
  · simp [Tame, remarks]
  · have hone : remarks (some (c :: cs)) = ['#' :: ' ' :: c :: cs] :=
      List.splitOn_eq_singleton (by simpa using h _ rfl)
    simp [Tame, hone, Line.read_comment, Line.isRemark]

/-- A comment of one line is read as what it says, and an empty one, which is not written,
as none. -/
theorem lastRemark_remarks (h : '\n' ∉ text) :
    lastRemark none (remarks (some text)) =
      if text = [] then none else some (Line.commentText text) := by
  cases text with
  | nil => rfl
  | cons c cs =>
    have hone : remarks (some (c :: cs)) = ['#' :: ' ' :: c :: cs] :=
      List.splitOn_eq_singleton (by simpa using h)
    simp [lastRemark, hone, Line.read_comment, Line.remark]

/-! ## Titles and entries -/

/-- Whether a text can be a key: it is trimmed, and neither a line feed nor an equals sign nor a
sign that begins a line of another kind stands in its way. -/
def IsKey (key : List Char) : Prop :=
  '\n' ∉ key ∧ '=' ∉ key ∧ Trimmed key ∧ Line.BeginsEntry key

/-- Whether a text can be a key is decided by its characters. -/
instance (key : List Char) : Decidable (IsKey key) := inferInstanceAs (Decidable (_ ∧ _ ∧ _ ∧ _))

/-- A section whose title, keys and values are lines, so that each of them is read where it was
written. -/
structure Plain (s : Section) : Prop where
  feed_not_mem_title : '\n' ∉ s.title
  trimmed_title : Trimmed s.title
  isKey : ∀ e ∈ s.entries, IsKey e.1
  feed_not_mem_value : ∀ e ∈ s.entries, '\n' ∉ e.2

/-- A written title is a line, which is read as the title: behind it stand the lines of the rest. -/
theorem lines_heading (h : s.Plain) : ∃ l, Line.read l = .heading s.title ∧
    ∀ rest, lines ('[' :: s.title ++ [']', '\n'] ++ rest) = l :: lines rest := by
  refine ⟨dropReturn ('[' :: s.title ++ [']']), ?_, fun rest => ?_⟩
  · rw [Line.read_dropReturn, Line.read_heading, h.trimmed_title.trim_eq]
  · have hfeed : '\n' ∉ '[' :: s.title ++ [']'] := by simp [h.feed_not_mem_title]
    have hline := Text.lines_append_feed hfeed rest
    simpa using hline

/-- A written entry is a line, which is read as its key and its value without blanks around it. -/
theorem lines_writeEntry {e : Entry} (hkey : IsKey e.1) (hvalue : '\n' ∉ e.2) :
    ∃ l, Line.read l = .entry e.1 (trim e.2) ∧
      ∀ rest, lines (writeEntry e ++ rest) = l :: lines rest := by
  obtain ⟨hfeed, hequals, htrimmed, hbegins⟩ := hkey
  -- blanks fill the columns between the key and the equals sign
  obtain ⟨blanks, hblanks⟩ : ∃ blanks, blanks = List.replicate (10 - e.1.length) ' ' ++ [' '] :=
    ⟨_, rfl⟩
  have hall : ∀ c ∈ blanks, c = ' ' := by
    intro c hc
    rw [hblanks, List.mem_append] at hc
    rcases hc with hc | hc
    · exact List.eq_of_mem_replicate hc
    · exact List.mem_singleton.1 hc
  have hblank : ∀ c ∈ blanks, isBlank c = true := fun c hc => hall c hc ▸ rfl
  have htrim : trim (e.1 ++ blanks) = e.1 := by
    rw [Text.trim_append_blanks hblank, htrimmed.trim_eq]
  refine ⟨dropReturn ((e.1 ++ blanks) ++ '=' :: ' ' :: e.2), ?_, fun rest => ?_⟩
  · have hcut : '=' ∉ e.1 ++ blanks := by
      simp only [List.mem_append, not_or]
      exact ⟨hequals, fun h => absurd (hall _ h) (by decide)⟩
    have hstart : Line.BeginsEntry (trimStart (e.1 ++ blanks)) := by
      cases hkey : e.1 with
      | nil =>
        have hnone : trimStart blanks = [] := List.dropWhile_eq_nil_iff.2 hblank
        simp [hnone, Line.BeginsEntry]
      | cons c cs =>
        rw [hkey] at htrimmed hbegins
        have hself : trimStart (c :: cs ++ blanks) = c :: cs ++ blanks :=
          Text.trimStart_eq_self_iff.2 (fun x hx => htrimmed.1 x (by simpa using hx))
        rw [hself]
        exact fun x hx => hbegins x (by simpa using hx)
    rw [Line.read_dropReturn, Line.read_entry hcut hstart, htrim,
      Text.trim_blank_cons (by decide)]
  · have hline : '\n' ∉ (e.1 ++ blanks) ++ '=' :: ' ' :: e.2 := by
      simp only [List.mem_append, List.mem_cons, not_or]
      exact ⟨⟨hfeed, fun h => absurd (hall _ h) (by decide)⟩, by decide, by decide, hvalue⟩
    have hfeeds := Text.lines_append_feed hline rest
    simpa [writeEntry, hblanks] using hfeeds

/-! ## Reading what was written -/

/-- What a section with a tame comment is read as: its title, the last line of its comment, and its
entries without blanks around their values. -/
def reread (s : Section) : Section :=
  ⟨s.title, lastRemark none (remarks s.comment), s.entries.map fun e => (e.1, trim e.2)⟩

/-- Written entries are read, and then those that follow in the same section. -/
theorem readFrom_entries (hkey : ∀ e ∈ es, IsKey e.1) (hvalue : ∀ e ∈ es, '\n' ∉ e.2)
    {es' : List Entry}
    (hrest : ∀ number, readFrom number true none (lines rest) = .ok (es', later))
    (number : Nat) : readFrom number true none (lines (es.flatMap writeEntry ++ rest)) =
      .ok (es.map (fun e => (e.1, trim e.2)) ++ es', later) := by
  induction es generalizing number with
  | nil => exact hrest number
  | cons e es ih =>
    obtain ⟨l, hread, hlines⟩ :=
      lines_writeEntry (hkey e List.mem_cons_self) (hvalue e List.mem_cons_self)
    have hes := ih (fun x hx => hkey x (List.mem_cons_of_mem e hx))
      (fun x hx => hvalue x (List.mem_cons_of_mem e hx)) (number + 1)
    rw [List.flatMap_cons, List.append_assoc, hlines, readFrom, hread]
    simp [hes]

/-- A section with more entries behind its own. -/
def extend (s : Section) (es : List Entry) : Section := { s with entries := s.entries ++ es }

/-- No more entries leave a section as it is. -/
@[simp] theorem extend_nil (s : Section) : s.extend [] = s := by simp [extend]

/-- A written section is its comment, its title and its entries, in this order, and then what stands
behind it. -/
theorem write_append (s : Section) (rest : List Char) : s.write ++ rest = writeComment s.comment ++
    ('[' :: s.title ++ [']', '\n'] ++ (s.entries.flatMap writeEntry ++ rest)) := by
  simp [write]

/-- A written title and what is written behind it: the section takes the comment that stands in
front of the title, whatever it is, and the entries up to the next title. -/
theorem readFrom_heading (hs : s.Plain)
    (hrest : ∀ number, readFrom number true none (lines rest) = .ok (es, later)) (number : Nat)
    (inside : Bool) (comment : Option (List Char)) :
    readFrom number inside comment
        (lines ('[' :: s.title ++ [']', '\n'] ++ (s.entries.flatMap writeEntry ++ rest))) =
      .ok ([], extend { s.reread with comment := comment } es :: later) := by
  obtain ⟨l, hread, hlines⟩ := lines_heading hs
  have hentries := readFrom_entries hs.isKey hs.feed_not_mem_value hrest
  rw [hlines, readFrom, hread]
  simp [hentries, reread, extend]

/-- A written section is read, with the entries that follow it, and then the sections that do. Its
comment is tame, so all of it is passed over but its last line. -/
theorem readFrom_write (hs : s.Plain) (htame : Tame s.comment)
    (hrest : ∀ number, readFrom number true none (lines rest) = .ok (es, later)) (number : Nat)
    (inside : Bool) : readFrom number inside none (lines (s.write ++ rest)) =
      .ok ([], s.reread.extend es :: later) := by
  rw [write_append, lines_writeComment, readFrom_remarks htame, readFrom_heading hs hrest]
  rfl

/-- The text behind a section: a blank line and the other sections, if there are any. -/
def following : List Section → List Char
  | [] => []
  | s :: ss => '\n' :: writeAll (s :: ss)

/-- A file is a section and what follows it. -/
theorem writeAll_cons (s : Section) (ss : List Section) :
    writeAll (s :: ss) = s.write ++ following ss := by
  cases ss with
  | nil => simp [writeAll, following]
  | cons t ts => simp [writeAll, following, Text.joinWith]

/-- The sections that follow stand behind a blank line, which keeps them apart from the entries in
front. -/
theorem lines_following_cons (s : Section) (ss : List Section) :
    lines (following (s :: ss)) = [] :: lines (writeAll (s :: ss)) :=
  Text.lines_append_feed (s := []) List.not_mem_nil _

/-- A blank line in front of a file makes no difference to what is read inside a section. -/
theorem readFrom_following
    (h : ∀ number inside, readFrom number inside none (lines (writeAll ss)) = .ok (es, later))
    (number : Nat) : readFrom number true none (lines (following ss)) = .ok (es, later) := by
  cases ss with
  | nil => exact h number true
  | cons s ss =>
    rw [lines_following_cons, readFrom, Line.read_nil]
    exact h (number + 1) true

/-- What the lines of a file with tame comments are read as: its sections one by one, each as
`reread`. The induction is on the sections. -/
theorem readFrom_writeAll (hplain : ∀ s ∈ ss, s.Plain) (htame : ∀ s ∈ ss, Tame s.comment)
    (number : Nat) (inside : Bool) :
    readFrom number inside none (lines (writeAll ss)) = .ok ([], ss.map reread) := by
  induction ss generalizing number inside with
  | nil => rfl
  | cons s ss ih =>
    obtain ⟨hs, hss⟩ := List.forall_mem_cons.1 hplain
    obtain ⟨hcomment, hcomments⟩ := List.forall_mem_cons.1 htame
    rw [writeAll_cons, readFrom_write hs hcomment (readFrom_following (ih hss hcomments)),
      extend_nil, List.map_cons]

/-- What a file with tame comments is read as: `readAll (writeAll ss) = .ok (ss.map reread)`. -/
theorem readAll_writeAll (hplain : ∀ s ∈ ss, s.Plain) (htame : ∀ s ∈ ss, Tame s.comment) :
    readAll (writeAll ss) = .ok (ss.map reread) := by
  rw [readAll, readFrom_writeAll hplain htame]
  rfl

/-! ## Forged entries -/

/-- A comment of two lines, the second of which is an entry and not a remark. -/
structure Forged (comment : Option (List Char)) (e : Entry) : Prop where
  lines_eq : ∃ first line, comment = some (first ++ '\n' :: line) ∧ '\n' ∉ first ∧ '\n' ∉ line ∧
    Line.read line = .entry e.1 e.2

/-- The entry in a comment is read in front of the section, as one of the section before; and the
title, which stands behind an entry now, has no comment. -/
theorem readFrom_forged {e : Entry} (hs : s.Plain) (hforged : Forged s.comment e)
    (hrest : ∀ number, readFrom number true none (lines rest) = .ok ([], later)) (number : Nat) :
    readFrom number true none (lines (s.write ++ rest)) =
      .ok ([e], { s.reread with comment := none } :: later) := by
  obtain ⟨first, line, hcomment, hfirst, hline, hread⟩ := hforged.lines_eq
  have hremarks : remarks (some (first ++ '\n' :: line)) = ['#' :: ' ' :: first, line] := by
    have hne : ∀ text, text = first ++ '\n' :: line →
        remarks (some text) = ('#' :: ' ' :: text).splitOn '\n' := by
      intro text htext
      cases text with
      | nil => simp at htext
      | cons c cs => rfl
    have hsign : '\n' ∉ '#' :: ' ' :: first := by simpa using hfirst
    rw [hne _ rfl, ← List.cons_append, ← List.cons_append,
      List.splitOn_append_cons_self_of_not_mem hsign, List.splitOn_eq_singleton hline]
  have hheading := readFrom_heading hs hrest (number + 1 + 1) true none
  rw [write_append, lines_writeComment, hcomment, hremarks]
  generalize lines ('[' :: s.title ++ [']', '\n'] ++ (s.entries.flatMap writeEntry ++ rest)) = ls
    at hheading ⊢
  -- the entry belongs to the section that is being read
  have hentry : ∀ comment, readFrom (number + 1) true comment (dropReturn line :: ls) =
      .ok ([e], { s.reread with comment := none } :: later) := by
    intro comment
    rw [readFrom, Line.read_dropReturn, hread]
    simp [hheading]
  rw [List.map_cons, List.map_cons, List.map_nil, List.cons_append, List.cons_append,
    List.nil_append, readFrom, Line.read_dropReturn, Line.read_comment]
  exact hentry _

/-- An entry in the comment of the second section is read as one of the first: nothing fails, and
the entry is not told apart from those that were written there. -/
theorem readAll_forged {t : Section} {e : Entry} (hs : s.Plain) (htame : Tame s.comment)
    (ht : t.Plain) (hforged : Forged t.comment e) (hplain : ∀ s ∈ ss, s.Plain)
    (htames : ∀ s ∈ ss, Tame s.comment) : readAll (writeAll (s :: t :: ss)) =
      .ok (s.reread.extend [e] :: { t.reread with comment := none } :: ss.map reread) := by
  have hss := readFrom_following (readFrom_writeAll hplain htames)
  have hblank : ∀ number, readFrom number true none (lines (following (t :: ss))) =
      .ok ([e], { t.reread with comment := none } :: ss.map reread) := by
    intro number
    rw [lines_following_cons, readFrom, Line.read_nil]
    simp only
    rw [writeAll_cons, readFrom_forged ht hforged hss]
  rw [readAll, writeAll_cons, readFrom_write hs htame hblank]
  rfl

/-! ## The values of a key of a section -/

/-- Rereading a section trims its values and changes no key. -/
theorem all_reread (s : Section) (key : String) : s.reread.all key = (s.all key).map trim := by
  simp [all, reread, List.filter_map, Function.comp_def]

/-- Rereading a section trims the last value of a key. -/
theorem get?_reread (s : Section) (key : String) : s.reread.get? key = (s.get? key).map trim := by
  rw [get?, all_reread, List.getLast?_map, get?]

/-- A section with the title is one of those with it. -/
theorem titled_cons_same {title : String} (h : s.title = title.toList) (ss : List Section) :
    titled (s :: ss) title = s :: titled ss title := by simp [titled, h]

/-- A section with another title is left out. -/
theorem titled_cons_other {title : String} (h : s.title ≠ title.toList) (ss : List Section) :
    titled (s :: ss) title = titled ss title := by simp [titled, h]

/-- Of sections that all have the title none is left out. -/
theorem titled_eq_self {title : String} (h : ∀ s ∈ ss, s.title = title.toList) :
    titled ss title = ss :=
  List.filter_eq_self.2 fun s hs => decide_eq_true (h s hs)

/-- The first of the sections, if it has the title, is the first one with it. -/
theorem first_cons {title : String} (h : s.title = title.toList) (ss : List Section) :
    first (s :: ss) title = .ok s := by
  rw [first, titled_cons_same h]
  rfl

/-- Behind a section with another title the first one is that of the others. -/
theorem first_cons_other {title : String} (h : s.title ≠ title.toList) (ss : List Section) :
    first (s :: ss) title = first ss title := by rw [first, titled_cons_other h, first]

/-- The values of a key among some entries, in their order; keys are compared without regard to
case. -/
def values (es : List Entry) (key : String) : List (List Char) :=
  (es.filter fun e => sameKey e.1 key.toList).map Prod.snd

/-- The values of a key in a section are those among its entries. -/
theorem all_eq_values (s : Section) (key : String) : s.all key = values s.entries key := rfl

variable {key : String} {k v : List Char} {α : Type} {f : α → List Char}

/-- Among no entries a key has no values. -/
@[simp] theorem values_nil (key : String) : values [] key = [] := rfl

/-- The values among more entries are those of the first ones and then those of the others. -/
@[simp] theorem values_append (es es' : List Entry) (key : String) :
    values (es ++ es') key = values es key ++ values es' key := by simp [values]

/-- An entry with the key has its value in front. -/
theorem values_cons_same (h : sameKey k key.toList = true) (es : List Entry) :
    values ((k, v) :: es) key = v :: values es key := by simp [values, h]

/-- An entry with another key has no value of this one. -/
theorem values_cons_other (h : sameKey k key.toList = false) (es : List Entry) :
    values ((k, v) :: es) key = values es key := by simp [values, h]

/-- Entries with the key have all their values, in their order. -/
theorem values_map_same (h : sameKey k key.toList = true) (l : List α) :
    values (l.map fun x => (k, f x)) key = l.map f := by
  have hall : l.filter (fun _ => true) = l := List.filter_eq_self.2 fun _ _ => rfl
  simp [values, List.filter_map, Function.comp_def, h, hall]

/-- Entries with another key have no values of this one. -/
theorem values_map_other (h : sameKey k key.toList = false) (l : List α) :
    values (l.map fun x => (k, f x)) key = [] := by
  simp [values, List.filter_map, Function.comp_def, h]

/-- More entries may have more values of a key, behind those of the section. -/
theorem all_extend (s : Section) (es : List Entry) (key : String) :
    (s.extend es).all key = s.all key ++ values es key := values_append s.entries es key

/-- One more entry has no value of another key, so what was read there is read as before. -/
theorem all_extend_other (h : sameKey k key.toList = false) (s : Section) :
    (s.extend [(k, v)]).all key = s.all key := by
  rw [all_extend, values_cons_other h, values_nil, List.append_nil]

/-! ## Reading something else -/

/-- How many lines are neither comments nor blank, and so have to be read as something. -/
def count (ls : List (List Char)) : Nat := ls.countP fun l => !(Line.read l).isRemark

/-- How many lines sections need, but for their comments: one for each title and for each entry. -/
def size (ss : List Section) : Nat := (ss.flatMap fun s => s.entries).length + ss.length

/-- A section needs a line for its title and one for each entry, beside those of the others. -/
theorem size_cons (s : Section) (ss : List Section) :
    size (s :: ss) = s.entries.length + 1 + size ss := by
  rw [size, size, List.flatMap_cons, List.length_append, List.length_cons]
  omega

/-- Lines are counted one after the other. -/
@[simp] theorem count_append (ls ls' : List (List Char)) :
    count (ls ++ ls') = count ls + count ls' := List.countP_append

/-- Carriage returns at the ends of lines do not count. -/
@[simp] theorem count_map_dropReturn (ls : List (List Char)) :
    count (ls.map dropReturn) = count ls := by
  simp only [count, List.countP_map, Function.comp_def, Line.read_dropReturn]

/-- Comments are tame exactly when they have no lines that count. -/
theorem count_remarks_eq_zero :
    count (ss.flatMap fun s => remarks s.comment) = 0 ↔ ∀ s ∈ ss, Tame s.comment := by
  simp only [count, List.countP_eq_zero, List.mem_flatMap, Bool.not_eq_true', Bool.not_eq_false]
  exact ⟨fun h s hs l hl => h l ⟨s, hs, hl⟩, fun h l ⟨s, hs, hl⟩ => h s hs l hl⟩

/-- Every line that is neither a comment nor blank is read as a title or an entry: what is read is
as large as `count ls`. -/
theorem size_of_readFrom (h : readFrom number inside comment ls = .ok (es, later)) :
    es.length + size later = count ls := by
  induction ls generalizing number inside comment es later with
  | nil =>
    cases h
    rfl
  | cons l ls ih =>
    rw [readFrom] at h
    cases hread : Line.read l with
    | blank =>
      simp only [hread] at h
      simp [ih h, count, hread, Line.isRemark]
    | comment text =>
      simp only [hread] at h
      simp [ih h, count, hread, Line.isRemark]
    -- a title closes the section in front of it, and is one line beside those behind it
    | heading title =>
      have hone : count (l :: ls) = count ls + 1 := by simp [count, hread, Line.isRemark]
      simp only [hread] at h
      split at h
      · next entries later' hrest =>
        cases h
        have hcount := ih hrest
        rw [List.length_nil, size_cons, hone]
        show 0 + (entries.length + 1 + size later') = _
        omega
      · cases h
    | entry key value =>
      have hone : count (l :: ls) = count ls + 1 := by simp [count, hread, Line.isRemark]
      simp only [hread] at h
      split at h
      · split at h
        · next entries later' hrest =>
          cases h
          have hcount := ih hrest
          rw [List.length_cons, hone]
          omega
        · cases h
      · cases h
    | other text =>
      simp only [hread] at h
      cases h

/-- No entry stands in front of the first title, where it would be a fault. -/
theorem entries_of_readFrom (h : readFrom number false comment ls = .ok (es, later)) : es = [] := by
  induction ls generalizing number comment with
  | nil =>
    cases h
    rfl
  | cons l ls ih =>
    rw [readFrom] at h
    split at h
    · exact ih h
    · exact ih h
    · split at h
      · cases h
        rfl
      · cases h
    · cases h
    · cases h

/-- Every line of a file that is neither a comment nor blank is read as a title or an entry: `size
ss = count (lines text)`. -/
theorem size_of_readAll {text : List Char} (h : readAll text = .ok ss) :
    size ss = count (lines text) := by
  rw [readAll] at h
  obtain ⟨p, hfrom, rfl⟩ := exists_of_map_ok h
  have hsize := size_of_readFrom hfrom
  rwa [entries_of_readFrom hfrom, List.length_nil, Nat.zero_add] at hsize

/-- The lines of written entries count one each. -/
theorem count_entries (hkey : ∀ e ∈ es, IsKey e.1) (hvalue : ∀ e ∈ es, '\n' ∉ e.2)
    (rest : List Char) :
    count (lines (es.flatMap writeEntry ++ rest)) = es.length + count (lines rest) := by
  induction es with
  | nil => simp
  | cons e es ih =>
    obtain ⟨l, hread, hlines⟩ :=
      lines_writeEntry (hkey e List.mem_cons_self) (hvalue e List.mem_cons_self)
    have hes := ih (fun x hx => hkey x (List.mem_cons_of_mem e hx))
      (fun x hx => hvalue x (List.mem_cons_of_mem e hx))
    have hone : count [l] = 1 := by simp [count, hread, Line.isRemark]
    rw [List.flatMap_cons, List.append_assoc, hlines, List.length_cons, ← List.singleton_append,
      count_append, hes, hone]
    omega

/-- The lines of a written section: one for its title and each entry, and those of its comment that
count. -/
theorem count_write (hs : s.Plain) (rest : List Char) : count (lines (s.write ++ rest)) =
    count (remarks s.comment) + (s.entries.length + 1) + count (lines rest) := by
  obtain ⟨l, hread, hlines⟩ := lines_heading hs
  have hentries := count_entries hs.isKey hs.feed_not_mem_value rest
  have hone : count [l] = 1 := by simp [count, hread, Line.isRemark]
  rw [write_append, lines_writeComment, hlines, ← List.singleton_append, count_append, count_append,
    count_map_dropReturn, hentries, hone]
  omega

/-- The lines of a file that count: those that its sections need, and those of its comments. So what
comments add is more than was written. -/
theorem count_writeAll (hplain : ∀ s ∈ ss, s.Plain) : count (lines (writeAll ss)) =
    count (ss.flatMap fun s => remarks s.comment) + size ss := by
  induction ss with
  | nil => rfl
  | cons s ss ih =>
    obtain ⟨hs, hss⟩ := List.forall_mem_cons.1 hplain
    -- the blank line in between is not counted
    have hfollowing : count (lines (following ss)) = count (lines (writeAll ss)) := by
      cases ss with
      | nil => rfl
      | cons t ts =>
        have hblank : count [[]] = 0 := rfl
        rw [lines_following_cons, ← List.singleton_append, count_append, hblank, Nat.zero_add]
    have hcount := count_write hs (following ss)
    rw [hfollowing, ih hss] at hcount
    rw [writeAll_cons, hcount, List.flatMap_cons, count_append, size_cons]
    omega

/-- Titles and entries of a file: all but its comments. -/
def outline (ss : List Section) : List (List Char × List Entry) :=
  ss.map fun s => (s.title, s.entries)

/-- How many lines sections need depends on their titles and entries only, so sections with one
outline need equally many. -/
theorem size_eq (ss : List Section) :
    size ss = ((outline ss).flatMap Prod.snd).length + (outline ss).length := by
  rw [size, outline, List.flatMap_map, List.length_map]

/-- The titles and entries that were written are read exactly when every comment is tame. If one is
not, a line of it counts, and as all such lines are read, more is read than was written. -/
theorem readAll_writeAll_iff (hplain : ∀ s ∈ ss, s.Plain)
    (htrimmed : ∀ s ∈ ss, ∀ e ∈ s.entries, Trimmed e.2) :
    (∃ read, readAll (writeAll ss) = .ok read ∧ outline read = outline ss) ↔
      ∀ s ∈ ss, Tame s.comment := by
  constructor
  · rintro ⟨read, hread, houtline⟩
    -- as many titles and entries are read as there are lines for them
    have hcount := count_writeAll hplain
    rw [← size_of_readAll hread, size_eq, houtline, ← size_eq] at hcount
    exact count_remarks_eq_zero.1 (by omega)
  · intro htame
    refine ⟨_, readAll_writeAll hplain htame, ?_⟩
    simp only [outline, List.map_map]
    refine List.map_congr_left fun s hs => ?_
    have hentries : s.entries.map (fun e => (e.1, trim e.2)) = s.entries := by
      have hsame : s.entries.map (fun e => (e.1, trim e.2)) = s.entries.map id := by
        refine List.map_congr_left fun e he => ?_
        rw [(htrimmed s hs e he).trim_eq]
        rfl
      rw [hsame, List.map_id]
    simp [reread, hentries]

/-! ## What is read has no line feeds -/

/-- A section whose comment and values have no line feed. -/
structure Feedless (s : Section) : Prop where
  comment : ∀ text ∈ s.comment, '\n' ∉ text
  value : ∀ e ∈ s.entries, '\n' ∉ e.2

/-- Lines without line feeds are read as entries and sections without line feeds, as reading only
takes parts of lines. The induction is on the lines; the comment that waits in front is one of a
line too. -/
theorem feedless_of_readFrom (hlines : ∀ l ∈ ls, '\n' ∉ l)
    (hcomment : ∀ text ∈ comment, '\n' ∉ text)
    (h : readFrom number inside comment ls = .ok (es, later)) :
    (∀ e ∈ es, '\n' ∉ e.2) ∧ ∀ s ∈ later, s.Feedless := by
  induction ls generalizing number inside comment es later with
  | nil =>
    cases h
    simp
  | cons l ls ih =>
    have hl : '\n' ∉ l := hlines l List.mem_cons_self
    have hls : ∀ l ∈ ls, '\n' ∉ l := fun x hx => hlines x (List.mem_cons_of_mem l hx)
    rw [readFrom] at h
    split at h
    · exact ih hls hcomment h
    · next text hread =>
      refine ih hls (fun t ht hfeed => ?_) h
      cases ht
      exact hl (Line.mem_of_read_comment hread hfeed)
    · split at h
      · next entries later' hrest =>
        cases h
        obtain ⟨hentries, hlater⟩ := ih hls (by simp) hrest
        refine ⟨by simp, fun s hs => ?_⟩
        rcases List.mem_cons.1 hs with rfl | hs
        · exact ⟨hcomment, hentries⟩
        · exact hlater s hs
      · cases h
    · next key value hread =>
      split at h
      · split at h
        · next entries later' hrest =>
          cases h
          obtain ⟨hentries, hlater⟩ := ih hls (by simp) hrest
          refine ⟨fun e he => ?_, hlater⟩
          rcases List.mem_cons.1 he with rfl | he
          · exact fun hfeed => hl (Line.mem_of_read_entry hread hfeed)
          · exact hentries e he
        · cases h
      · cases h
    · cases h

/-- The values of a key have no line feed, in a section whose entries have none. -/
theorem Feedless.not_mem_of_mem_all (h : s.Feedless) {value : List Char}
    (hvalue : value ∈ s.all key) : '\n' ∉ value := by
  obtain ⟨e, he, rfl⟩ := List.mem_map.1 hvalue
  exact h.value e (List.mem_filter.1 he).1

/-- A value that must be there is one of the values of its key. -/
theorem mem_all_of_require {title : String} {value : List Char}
    (h : s.require title key = .ok value) : value ∈ s.all key := by
  rw [require] at h
  split at h
  · next hget =>
    cases h
    exact List.mem_of_mem_getLast? hget
  · cases h

/-- The first section with a title is one of the sections. -/
theorem mem_of_first {title : String} (h : first ss title = .ok s) : s ∈ ss := by
  rw [first] at h
  split at h
  · next hhead =>
    cases h
    exact (List.mem_filter.1 (List.mem_of_mem_head? hhead)).1
  · cases h

/-- No section that is read has a line feed in its comment or in a value. -/
theorem feedless_of_readAll {text : List Char} (h : readAll text = .ok ss) :
    ∀ s ∈ ss, s.Feedless := by
  rw [readAll] at h
  obtain ⟨p, hfrom, rfl⟩ := exists_of_map_ok h
  exact (feedless_of_readFrom (fun l hl => Text.not_mem_of_mem_lines hl) (by simp) hfrom).2

end Section

end WireKeeper.Config
