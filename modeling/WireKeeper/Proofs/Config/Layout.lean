import Mathlib.Data.List.Induction
import Mathlib.Logic.Relation
import WireKeeper.Proofs.Config.Spelling
import WireKeeper.Proofs.Config.Used

/-! # The layout of a configuration file does not matter

A configuration that is read from a file is read from the file as well when its layout changes: line
ends, blank lines, blanks at the ends of lines and around equals signs, the case of keys, the order
of entries with different keys, and entries that the format does not use.

What the lines in front of a line leave behind is its **place**: the title of the section that is
being read, and the comment that waits for a title. So an edit need only be looked at where it is
made: from there on, the entries and sections that are read agree, and so do those that begin in
front of it.

* `Edit`, `EditedText`: the changes of layout, in the lines of a file and in its text;
* `Place`, `readAt`: reading from a place on;
* `AgreesAt`, `Carries.append`: what is read with the lines in front of an edit;
* `Edit.carries`: what is read where the edit is made;
* `EditedText.exists_readAll`: the text of a file, with one edit;
* `bind_readAll_of_edited`, `parse_of_edited`: any number of edits. -/

namespace WireKeeper.Config

open Text (isBlank dropReturn)

variable {used : List Char → List String}

/-! ## Edits -/

/-- The title of the section that the line behind some lines belongs to, if there is one: the last
title among them. -/
def sectionOf (ls : List (List Char)) : Option (List Char) :=
  ls.foldl (fun title l => match Line.read l with
    | .heading title' => some title'
    | _ => title) none

/-- A change of layout, in the lines between the line feeds of a file. Each constructor names the
lines in front of the change and behind it, so one edit changes one place. -/
inductive Edit (used : List Char → List String) : List (List Char) → List (List Char) → Prop where
  /-- A carriage return goes in front of a line feed. -/
  | returned (front : List (List Char)) (line : List Char) {back : List (List Char)}
    (inner : back ≠ []) : Edit used (front ++ line :: back) (front ++ (line ++ ['\r']) :: back)
  /-- A blank line comes in anywhere. -/
  | blank (front : List (List Char)) (line : List Char) {back : List (List Char)}
    (blanks : ∀ c ∈ line, isBlank c = true) : Edit used (front ++ back) (front ++ line :: back)
  /-- There are other blanks at the ends of a line. -/
  | padded (front : List (List Char)) (lead lead' line trail trail' : List Char)
    {back : List (List Char)} (blanks : ∀ c ∈ lead ++ lead' ++ trail ++ trail', isBlank c = true) :
    Edit used (front ++ (lead ++ line ++ trail) :: back)
      (front ++ (lead' ++ line ++ trail') :: back)
  /-- Blanks come around the first equals sign of an entry. -/
  | spaced (front : List (List Char)) (key lead trail value : List Char) {k v : List Char}
    {back : List (List Char)} (first : '=' ∉ key)
    (entry : Line.read (key ++ '=' :: value) = .entry k v)
    (blanks : ∀ c ∈ lead ++ trail, isBlank c = true) :
    Edit used (front ++ (key ++ '=' :: value) :: back)
      (front ++ (key ++ lead ++ '=' :: (trail ++ value)) :: back)
  /-- Letters of the key of an entry are of the other case. -/
  | recased (front : List (List Char)) (key key' value : List Char) {k v : List Char}
    {back : List (List Char)} (first : '=' ∉ key)
    (entry : Line.read (key ++ '=' :: value) = .entry k v)
    (same : Section.sameKey key' key = true) :
    Edit used (front ++ (key ++ '=' :: value) :: back) (front ++ (key' ++ '=' :: value) :: back)
  /-- Two entries with different keys change places, with blank lines and comments between them at
  most. -/
  | swapped (front gap : List (List Char)) {line line' k v k' v' : List Char}
    {back : List (List Char)} (remarks : ∀ l ∈ gap, (Line.read l).isRemark = true)
    (entry : Line.read line = .entry k v) (entry' : Line.read line' = .entry k' v')
    (different : Section.sameKey k k' = false) :
    Edit used (front ++ line :: (gap ++ line' :: back)) (front ++ line' :: (gap ++ line :: back))
  /-- Behind a title or an entry comes an entry that is not used in its section. -/
  | inserted (front : List (List Char)) (line line' : List Char) {title k v : List Char}
    {back : List (List Char)}
    (behind : (∃ title, Line.read line = .heading title) ∨ ∃ k v, Line.read line = .entry k v)
    (inside : sectionOf (front ++ [line]) = some title) (entry : Line.read line' = .entry k v)
    (unused : ∀ key ∈ used title, Section.sameKey k key.toList = false) :
    Edit used (front ++ line :: back) (front ++ line :: line' :: back)

/-- A change of layout in the text of a file: an `Edit` of what stands between its line feeds. -/
def EditedText (used : List Char → List String) (t t' : String) : Prop :=
  Edit used (t.toList.splitOn '\n') (t'.toList.splitOn '\n')

/-! ## Places -/

/-- What the lines in front of a line leave behind, which is all that reading remembers of them. -/
structure Place where
  /-- The title of the section that is being read. -/
  title : Option (List Char) := none
  /-- The comment that no title or entry has followed. -/
  comment : Option (List Char) := none

/-- The place behind a line: a title begins a section, and a title or an entry ends the waiting of a
comment. -/
def Place.after (p : Place) (l : List Char) : Place :=
  match Line.read l with
  | .blank | .other _ => p
  | .comment text => { p with comment := some text }
  | .heading title => ⟨some title, none⟩
  | .entry .. => { p with comment := none }

/-- What is read with a line in front, by what is read behind it: an entry joins the section that is
being read, and a title closes it and begins another. -/
def Place.prepend (p : Place) (l : Line) (r : List Entry × List Section) :
    Option (List Entry × List Section) :=
  match l with
  | .blank | .comment _ => some r
  | .heading title => some ([], ⟨title, p.comment, r.1⟩ :: r.2)
  | .entry key value => if p.title.isSome then some ((key, value) :: r.1, r.2) else none
  | .other _ => none

/-- What is read from a place on: the entries up to the next title, and the sections from there.
Nothing is read if some line is a fault. -/
def readAt (p : Place) (ls : List (List Char)) : Option (List Entry × List Section) :=
  (Section.readFrom 1 p.title.isSome p.comment ls).toOption

variable {p : Place} {l : List Char} {ls front back back' : List (List Char)}
  {r r' : List Entry × List Section}

/-- What is read from a line on, by what is read behind it, for lines that are counted from
`number`. -/
theorem toOption_readFrom_cons (number : Nat) (p : Place) (l : List Char) (ls : List (List Char)) :
    (Section.readFrom number p.title.isSome p.comment (l :: ls)).toOption =
      (Section.readFrom (number + 1) (p.after l).title.isSome (p.after l).comment ls).toOption.bind
        (p.prepend (Line.read l)) := by
  rw [Section.readFrom, Place.after]
  -- by the kind of the line: blanks and comments add nothing, a title closes what stands behind it,
  -- and an entry needs a title in front
  cases Line.read l with
  | blank | comment text => exact (Option.bind_fun_some _).symm
  | heading title =>
    dsimp only [Option.isSome_some]
    cases Section.readFrom (number + 1) true none ls <;> rfl
  | entry key value =>
    obtain ⟨title, comment⟩ := p
    cases title with
    | none => exact (Option.bind_fun_none _).symm
    | some title =>
      dsimp only [Option.isSome_some, if_true]
      cases Section.readFrom (number + 1) true none ls <;> rfl
  | other text => exact (Option.bind_fun_none _).symm

/-- Lines are read alike whatever their numbers are, as numbers stand in faults only. -/
theorem toOption_readFrom (number number' : Nat) (p : Place) (ls : List (List Char)) :
    (Section.readFrom number p.title.isSome p.comment ls).toOption =
      (Section.readFrom number' p.title.isSome p.comment ls).toOption := by
  induction ls generalizing number number' p with
  | nil => rfl
  | cons l ls ih => rw [toOption_readFrom_cons, toOption_readFrom_cons, ih]

/-- What is read from a line on, by what is read behind it: `p.prepend` of the line, at the place
`p.after l`. -/
theorem readAt_cons (p : Place) (l : List Char) (ls : List (List Char)) :
    readAt p (l :: ls) = (readAt (p.after l) ls).bind (p.prepend (Line.read l)) := by
  rw [readAt, toOption_readFrom_cons, readAt, toOption_readFrom 2 1]

/-- Lines that are the same are read alike: if `Line.read l' = Line.read l`, one can stand for the
other. -/
theorem readAt_congr {l' : List Char} (h : Line.read l' = Line.read l) (p : Place)
    (ls : List (List Char)) : readAt p (l' :: ls) = readAt p (l :: ls) := by
  rw [readAt_cons, readAt_cons, Place.after, Place.after, h]

/-- A blank line makes no difference, wherever it stands. -/
theorem readAt_blank (h : Line.read l = .blank) (p : Place) (ls : List (List Char)) :
    readAt p (l :: ls) = readAt p ls := by
  rw [readAt_cons, Place.after, h]
  exact Option.bind_fun_some _

/-- An entry is read in a section only, in front of what is read behind it; the comment in front of
it is dropped. -/
theorem readAt_entry_iff {k v : List Char} (h : Line.read l = .entry k v)
    {q : List Entry × List Section} :
    readAt p (l :: ls) = some q ↔ p.title.isSome = true ∧
      ∃ r, readAt { p with comment := none } ls = some r ∧ ((k, v) :: r.1, r.2) = q := by
  rw [readAt_cons, Place.after, h, Option.bind_eq_some_iff]
  simp only [Place.prepend, Option.ite_none_right_eq_some, Option.some.injEq]
  exact ⟨fun ⟨r, hr, htitle, hq⟩ => ⟨htitle, r, hr, hq⟩,
    fun ⟨htitle, r, hr, hq⟩ => ⟨r, hr, htitle, hq⟩⟩

/-- Blank lines and comments make no difference in front of an entry, as no title is left for a
comment to go to. -/
theorem readAt_remarks {gap : List (List Char)}
    (hremarks : ∀ l ∈ gap, (Line.read l).isRemark = true) {k v : List Char}
    (h : Line.read l = .entry k v) (p : Place) :
    readAt p (gap ++ l :: ls) = readAt p (l :: ls) := by
  induction gap generalizing p with
  | nil => rfl
  | cons r gap ih =>
    obtain ⟨hremark, hremarks⟩ := List.forall_mem_cons.1 hremarks
    rw [List.cons_append, readAt_cons, ih hremarks, Place.after]
    cases hread : Line.read r with
    | blank => exact Option.bind_fun_some _
    | comment text =>
      -- the entry drops this comment, as it drops the one that was there
      refine (Option.bind_fun_some _).trans ?_
      rw [readAt_cons, readAt_cons, Place.after, Place.after, h]
      rfl
    | heading title =>
      rw [hread] at hremark
      cases hremark
    | entry key value =>
      rw [hread] at hremark
      cases hremark
    | other text =>
      rw [hread] at hremark
      cases hremark

/-! ## What agrees -/

/-- What is read is the same to a format: the values of all keys that it uses, if it is read in a
section with this title, if in any, and section by section what stands behind. -/
structure AgreesAt (used : List Char → List String) (title : Option (List Char))
    (r r' : List Entry × List Section) : Prop where
  values : ∀ t ∈ title, ∀ key ∈ used t, Section.values r'.1 key = Section.values r.1 key
  sections : List.Forall₂ (Section.Agrees used) r.2 r'.2

/-- What is read agrees with itself. -/
theorem AgreesAt.refl (used : List Char → List String) (title : Option (List Char))
    (r : List Entry × List Section) : AgreesAt used title r r :=
  ⟨fun _ _ _ _ => rfl, List.forall₂_refl _⟩

/-- Values are the same with an entry in front of entries that have the same values of a key. -/
theorem values_cons_congr {es es' : List Entry} {key : String}
    (h : Section.values es' key = Section.values es key) (e : Entry) :
    Section.values (e :: es') key = Section.values (e :: es) key := by
  rw [← List.singleton_append, Section.values_append, h, ← Section.values_append,
    List.singleton_append]

/-- What agrees does so with a line in front: what is read behind the line may be exchanged for what
agrees with it. Over the lines in front of an edit this is the step. -/
theorem AgreesAt.prepend (h : AgreesAt used (p.after l).title r r') {q : List Entry × List Section}
    (hq : p.prepend (Line.read l) r = some q) :
    ∃ q', p.prepend (Line.read l) r' = some q' ∧ AgreesAt used p.title q q' := by
  rw [Place.after] at h
  -- a title gathers the entries behind it into a section, so there agreement on values becomes
  -- agreement of sections
  cases hread : Line.read l with
  | blank | comment text =>
    rw [hread] at h hq
    cases hq
    exact ⟨r', rfl, h⟩
  | heading title =>
    rw [hread] at h hq
    cases hq
    exact ⟨_, rfl, fun _ _ _ _ => rfl, .cons ⟨rfl, rfl, h.values title rfl⟩ h.sections⟩
  | entry key value =>
    rw [hread] at h hq
    simp only [Place.prepend, Option.ite_none_right_eq_some, Option.some.injEq] at hq ⊢
    obtain ⟨htitle, rfl⟩ := hq
    refine ⟨_, ⟨htitle, rfl⟩, fun t ht key' hkey => ?_, h.sections⟩
    exact values_cons_congr (h.values t ht key' hkey) (key, value)
  | other text =>
    rw [hread] at hq
    cases hq

/-- Whatever is read of some lines from a place on, the same is read of others, as far as the format
can tell. -/
def Carries (used : List Char → List String) (p : Place) (ls ls' : List (List Char)) : Prop :=
  ∀ r, readAt p ls = some r → ∃ r', readAt p ls' = some r' ∧ AgreesAt used p.title r r'

/-- Lines that are read alike carry what is read: what is equal agrees. -/
theorem carries_of_eq (h : readAt p back' = readAt p back) : Carries used p back back' :=
  fun r hr => ⟨r, h.trans hr, .refl used p.title r⟩

/-- An edit carries what is read with lines in front if it does so at the place behind them. The
induction is on these lines. -/
theorem Carries.append (h : Carries used (front.foldl Place.after p) back back') :
    Carries used p (front ++ back) (front ++ back') := by
  induction front generalizing p with
  | nil => exact h
  | cons l front ih =>
    intro q hq
    rw [List.cons_append, readAt_cons] at hq ⊢
    obtain ⟨r, hr, hq⟩ := Option.bind_eq_some_iff.1 hq
    obtain ⟨r', hr', hagrees⟩ := ih h r hr
    rw [hr']
    exact hagrees.prepend hq

/-! ## Every edit where it is made -/

/-- A key in another case has the same values, as keys are compared without regard to case. -/
theorem values_recased {k k' v : List Char} (h : Section.sameKey k' k = true) (es : List Entry)
    (key : String) : Section.values ((k', v) :: es) key = Section.values ((k, v) :: es) key := by
  have hsame := Section.sameKey_congr h key.toList
  cases hkey : Section.sameKey k key.toList with
  | true =>
    rw [Section.values_cons_same (hsame.trans hkey), Section.values_cons_same hkey]
  | false =>
    rw [Section.values_cons_other (hsame.trans hkey), Section.values_cons_other hkey]

/-- The order of two entries with different keys does not matter to the values of any key, of which
at most one of them is a value. -/
theorem values_swapped {k k' v v' : List Char} (h : Section.sameKey k k' = false) (es : List Entry)
    (key : String) : Section.values ((k', v') :: (k, v) :: es) key =
      Section.values ((k, v) :: (k', v') :: es) key := by
  cases hk : Section.sameKey k key.toList with
  | true =>
    -- it is the key of one of them at most
    have hk' : Section.sameKey k' key.toList = false := by
      refine Bool.eq_false_iff.2 fun hk' => ?_
      rw [Section.sameKey_of_sameKey hk hk'] at h
      cases h
    rw [Section.values_cons_other hk', Section.values_cons_same hk, Section.values_cons_same hk,
      Section.values_cons_other hk']
  | false =>
    cases hk' : Section.sameKey k' key.toList with
    | true =>
      rw [Section.values_cons_same hk', Section.values_cons_other hk, Section.values_cons_other hk,
        Section.values_cons_same hk']
    | false =>
      rw [Section.values_cons_other hk', Section.values_cons_other hk, Section.values_cons_other hk,
        Section.values_cons_other hk']

/-- The title of a place is the last one in front of it: `sectionOf` of the lines before. -/
theorem title_foldl_after (ls : List (List Char)) :
    (ls.foldl Place.after {}).title = sectionOf ls := by
  induction ls using List.reverseRecOn with
  | nil => rfl
  | append_singleton ls l ih =>
    rw [sectionOf, List.foldl_append, List.foldl_append] at *
    rw [List.foldl_cons, List.foldl_nil, List.foldl_cons, List.foldl_nil, Place.after, ← ih]
    cases Line.read l <;> rfl

/-- No comment waits behind a title or an entry, so an entry there changes no comment of a
section. -/
theorem comment_after
    (h : (∃ title, Line.read l = .heading title) ∨ ∃ k v, Line.read l = .entry k v) (p : Place) :
    (p.after l).comment = none := by
  rw [Place.after]
  obtain ⟨title, h⟩ | ⟨k, v, h⟩ := h
  · rw [h]
  · rw [h]

/-- Every edit carries what is read. The lines in front of it are left to `Carries.append`, so each
kind is looked at where it is made. -/
theorem Edit.carries {ls ls' : List (List Char)} (h : Edit used ls ls') :
    Carries used {} ls ls' := by
  cases h with
  -- the first four kinds leave each line what it was, or bring in a blank one
  | returned front line inner =>
    refine (carries_of_eq (readAt_congr (Line.read_congr ?_) _ _)).append
    exact Text.trim_concat_blank (by decide) line
  | blank front line blanks =>
    refine (carries_of_eq (readAt_blank ?_ _ _)).append
    rw [Line.read, Text.trim_blanks blanks]
  | padded front lead lead' line trail trail' blanks =>
    simp only [List.forall_mem_append] at blanks
    obtain ⟨⟨⟨hlead, hlead'⟩, htrail⟩, htrail'⟩ := blanks
    refine (carries_of_eq (readAt_congr (Line.read_congr ?_) _ _)).append
    rw [Text.trim_append_blanks htrail', Text.trim_blanks_append hlead',
      Text.trim_append_blanks htrail, Text.trim_blanks_append hlead]
  | spaced front key lead trail value first entry blanks =>
    obtain ⟨hlead, htrail⟩ := List.forall_mem_append.1 blanks
    refine (carries_of_eq (readAt_congr ?_ _ _)).append
    rw [Line.read_spaced first hlead htrail entry, entry]
  -- the others change entries, but not the values of a key that is used
  | recased front key key' value first entry same =>
    obtain ⟨k', hread, hsame⟩ := Line.read_recased first same entry
    refine Carries.append fun q hq => ?_
    obtain ⟨htitle, r, hr, rfl⟩ := (readAt_entry_iff entry).1 hq
    exact ⟨_, (readAt_entry_iff hread).2 ⟨htitle, r, hr, rfl⟩,
      fun _ _ key _ => values_recased hsame r.1 key, List.forall₂_refl _⟩
  | swapped front gap remarks entry entry' different =>
    refine Carries.append fun q hq => ?_
    obtain ⟨htitle, r₁, hr₁, rfl⟩ := (readAt_entry_iff entry).1 hq
    rw [readAt_remarks remarks entry'] at hr₁
    obtain ⟨-, r, hr, rfl⟩ := (readAt_entry_iff entry').1 hr₁
    refine ⟨_, (readAt_entry_iff entry').2 ⟨htitle, _, (readAt_remarks remarks entry _).trans
      ((readAt_entry_iff entry).2 ⟨htitle, r, hr, rfl⟩), rfl⟩, ?_, List.forall₂_refl _⟩
    exact fun _ _ key _ => values_swapped different r.1 key
  | @inserted front line line' title k v back behind inside entry unused =>
    rw [List.append_cons, List.append_cons front line (line' :: back)]
    refine Carries.append fun r hr => ?_
    generalize hp : (front ++ [line]).foldl Place.after {} = p at hr ⊢
    have htitle : p.title = some title := by rw [← hp, title_foldl_after, inside]
    have hcomment : p.comment = none := by
      rw [← hp, List.foldl_append]
      exact comment_after behind _
    have hplace : { p with comment := none } = p := by rw [← hcomment]
    refine ⟨_, (readAt_entry_iff entry).2 ⟨by rw [htitle]; rfl, r, hplace.symm ▸ hr, rfl⟩,
      fun t ht key hkey => ?_, List.forall₂_refl _⟩
    cases htitle.symm.trans ht
    exact Section.values_cons_other (unused key hkey) r.1

/-! ## Any number of edits -/

/-- Lines that are the same one by one are read alike in front of what is read alike. -/
theorem readAt_append_congr {front' : List (List Char)}
    (hfront : List.Forall₂ (fun l' l => Line.read l' = Line.read l) front' front)
    (hback : ∀ p, readAt p back' = readAt p back) (p : Place) :
    readAt p (front' ++ back') = readAt p (front ++ back) := by
  induction hfront generalizing p with
  | nil => exact hback p
  | cons hline _ ih =>
    rw [List.cons_append, List.cons_append, readAt_congr hline, readAt_cons, readAt_cons, ih]

/-- The lines of a text are read like what stands between its line feeds: a carriage return in front
of one is a blank, and nothing behind the last one is a blank line. -/
theorem readAt_lines (p : Place) (s : List Char) :
    readAt p (Text.lines s) = readAt p (s.splitOn '\n') := by
  obtain ⟨front, last, hpieces⟩ := List.eq_nil_or_concat' (s.splitOn '\n') |>.resolve_left
    (List.splitOn_ne_nil _ _)
  have hreturns : List.Forall₂ (fun l' l => Line.read l' = Line.read l) (front.map dropReturn)
      front :=
    List.forall₂_map_left_iff.2 (List.forall₂_same.2 fun l _ => Line.read_dropReturn l)
  rw [Text.lines, hpieces]
  simp only [List.dropLast_concat, List.getLast?_concat, Option.toList_some]
  refine readAt_append_congr hreturns (fun p => ?_) p
  cases last with
  | cons c cs => rfl
  | nil =>
    -- what is empty behind the last line feed is no line, but it would be a blank one
    exact (readAt_blank Line.read_nil p []).symm

/-- The sections of a text are what is read of what stands between its line feeds, from the place
where no title has been read. -/
theorem readAll_eq_ok {s : List Char} {ss : List Section} :
    Section.readAll s = .ok ss ↔ ∃ r, readAt {} (s.splitOn '\n') = some r ∧ r.2 = ss := by
  rw [← readAt_lines, readAt, Section.readAll]
  show (Section.readFrom 1 false none (Text.lines s)).map Prod.snd = .ok ss ↔
    ∃ r, (Section.readFrom 1 false none (Text.lines s)).toOption = some r ∧ r.2 = ss
  cases Section.readFrom 1 false none (Text.lines s) with
  | error e =>
    constructor
    · intro h
      cases h
    · rintro ⟨r, h, -⟩
      cases h
  | ok r =>
    constructor
    · exact fun h => ⟨r, rfl, Except.ok.inj h⟩
    · rintro ⟨r', h, hss⟩
      cases h
      exact congrArg _ hss

/-- The sections of a text that is edited agree with those of the text, one by one and in the same
order. -/
theorem EditedText.exists_readAll {t t' : String} (h : EditedText used t t') {ss : List Section}
    (hread : Section.readAll t.toList = .ok ss) :
    ∃ ss', Section.readAll t'.toList = .ok ss' ∧ List.Forall₂ (Section.Agrees used) ss ss' := by
  obtain ⟨r, hr, rfl⟩ := readAll_eq_ok.1 hread
  obtain ⟨r', hr', hagrees⟩ := Edit.carries h r hr
  exact ⟨r'.2, readAll_eq_ok.2 ⟨r', hr', rfl⟩, hagrees.sections⟩

/-- Whatever agreeing sections are read as, a text is read as it after any number of edits. The
induction is on the edits. -/
theorem bind_readAll_of_edited {α : Type} {f : List Section → Except Error α}
    (hf : ∀ {ss ss'}, List.Forall₂ (Section.Agrees used) ss ss' → f ss' = f ss) {t t' : String}
    (hedits : Relation.ReflTransGen (EditedText used) t t') {c : α}
    (h : Section.readAll t.toList >>= f = .ok c) : Section.readAll t'.toList >>= f = .ok c := by
  induction hedits with
  | refl => exact h
  | tail _ hedit ih =>
    obtain ⟨ss, hread, hsections⟩ := bind_eq_ok.1 ih
    obtain ⟨ss', hread', hagrees⟩ := hedit.exists_readAll hread
    exact bind_eq_ok.2 ⟨ss', hread', (hf hagrees).trans hsections⟩

/-- **The layout of a file does not matter.** A configuration of either kind that is read from a
text is read from the text as well after any number of edits, of any kinds and in any order. -/
theorem parse_of_edited :
    (∀ t t' c, Relation.ReflTransGen (EditedText Server.used) t t' →
      Server.parse t = .ok c → Server.parse t' = .ok c) ∧
    (∀ t t' c, Relation.ReflTransGen (EditedText Client.used) t t' →
      Client.parse t = .ok c → Client.parse t' = .ok c) := by
  constructor
  · intro t t' c hedits hparse
    exact bind_readAll_of_edited Server.ofSections_congr hedits hparse
  · intro t t' c hedits hparse
    exact bind_readAll_of_edited Client.ofSections_congr hedits hparse

/-- The text of some lines, with line feeds between them. -/
def textOf (ls : List (List Char)) : String := String.ofList (Text.joinWith ['\n'] ls)

/-- Lines without line feeds, of which there is at least one, are those of their text: it is parted
into them again. -/
def AreLines (ls : List (List Char)) : Prop := (∀ l ∈ ls, '\n' ∉ l) ∧ ls ≠ []

/-- Whether lines have line feeds can be looked at, so fixed files are edited by evaluation. -/
instance (ls : List (List Char)) : Decidable (AreLines ls) := instDecidableAnd

/-- Lines that are edited make a text that is edited, if both are the lines of their texts. -/
theorem Edit.editedText {ls ls' : List (List Char)} (h : Edit used ls ls') (hls : AreLines ls)
    (hls' : AreLines ls') : EditedText used (textOf ls) (textOf ls') := by
  rw [EditedText, textOf, textOf, String.toList_ofList, String.toList_ofList,
    Text.splitOn_joinWith hls.1 hls.2, Text.splitOn_joinWith hls'.1 hls'.2]
  exact h

/-- A key with the equals sign in front of it, in a small file. -/
def smallKey : List Char := '=' :: "dCBKoOeemEU41f9rfEvCCFm8gLsRVxhf/pdJkTm1uog=".toList

/-- A small file of a server: a name, an address and a key. -/
def plainLines : List (List Char) :=
  ["# server".toList, "[Interface]".toList, "Address=10.9.8.1/24".toList,
    "PrivateKey".toList ++ smallKey, []]

/-- The lines that it begins with in another layout: with a carriage return, a blank line, and
blanks around its title. -/
def relaidStart : List (List Char) :=
  ["# server\r".toList, "\t".toList, " [Interface] ".toList]

/-- The same file in another layout: beside its start, an entry more, a key in capitals, blanks at
an equals sign, and two entries in the other order. -/
def relaidLines : List (List Char) :=
  relaidStart ++ ["MTU = 1420".toList, "PRIVATEKEY".toList ++ smallKey,
    "Address\t= 10.9.8.1/24".toList, []]

/-- One edit of each kind makes the one layout of the file the other, step by step. -/
theorem edited_relaidLines :
    Relation.ReflTransGen (EditedText Server.used) (textOf plainLines) (textOf relaidLines) := by
  refine .head ((Edit.returned [] "# server".toList (List.cons_ne_nil _ _)).editedText
    (by decide) (by decide)) ?_
  refine .head ((Edit.blank ["# server\r".toList] "\t".toList
    (List.all_eq_true.1 rfl)).editedText (by decide) (by decide)) ?_
  refine .head ((Edit.padded ["# server\r".toList, "\t".toList] [] [' '] "[Interface]".toList []
    [' '] (List.all_eq_true.1 rfl)).editedText (by decide) (by decide)) ?_
  refine .head ((Edit.spaced relaidStart "Address".toList ['\t'] [' '] "10.9.8.1/24".toList
    (by decide) rfl (List.all_eq_true.1 rfl)).editedText (by decide) (by decide)) ?_
  refine .head ((Edit.recased (relaidStart ++ ["Address\t= 10.9.8.1/24".toList])
    "PrivateKey".toList "PRIVATEKEY".toList smallKey.tail (by decide) rfl rfl).editedText
    (by decide) (by decide)) ?_
  refine .head ((Edit.swapped relaidStart [] (by decide) rfl rfl rfl).editedText
    (by decide) (by decide)) ?_
  exact .single ((Edit.inserted ["# server\r".toList, "\t".toList] " [Interface] ".toList
    "MTU = 1420".toList (.inl ⟨_, rfl⟩) rfl rfl (by decide)).editedText (by decide) (by decide))

/-- A small file of a client, with more entries of the server it connects to. -/
def clientLines (more : List (List Char)) : List (List Char) :=
  ["# alice".toList, "[Interface]".toList, "Address=10.9.8.2/24".toList,
    "PrivateKey".toList ++ smallKey, "[Peer]".toList] ++ more ++
  ["PublicKey".toList ++ smallKey, "Endpoint=vpn.example:51820".toList,
    "AllowedIPs=0.0.0.0/0".toList, []]

/-- The key of a name server is not used where the server is described, so bringing it in there is
an edit. -/
theorem edited_clientLines : EditedText Client.used (textOf (clientLines []))
    (textOf (clientLines ["DNS = 1.1.1.1".toList])) :=
  (Edit.inserted ((clientLines []).take 4) "[Peer]".toList "DNS = 1.1.1.1".toList
    (.inl ⟨_, rfl⟩) rfl rfl (by decide)).editedText (by decide) (by decide)

/-- The small files are read in the other layouts as the same configurations: that of a server after
seven edits, that of a client after one. -/
theorem parse_of_edited_relaid :
    (∃ c, c.interface.name = some "server" ∧ Server.parse (textOf plainLines) = .ok c ∧
      Server.parse (textOf relaidLines) = .ok c) ∧
    ∃ c, c.interface.dns = [] ∧ Client.parse (textOf (clientLines [])) = .ok c ∧
      Client.parse (textOf (clientLines ["DNS = 1.1.1.1".toList])) = .ok c := by
  constructor
  · have hname : (Server.parse (textOf plainLines)).toOption.map (fun c => c.interface.name) =
        some (some "server") := by decide +kernel
    obtain ⟨c, hparse, hname⟩ := exists_of_toOption_map hname
    exact ⟨c, hname, hparse, parse_of_edited.1 _ _ c edited_relaidLines hparse⟩
  · have hdns : (Client.parse (textOf (clientLines []))).toOption.map (fun c => c.interface.dns) =
        some [] := by decide +kernel
    obtain ⟨c, hparse, hdns⟩ := exists_of_toOption_map hdns
    exact ⟨c, hdns, hparse, parse_of_edited.2 _ _ c (.single edited_clientLines) hparse⟩

end WireKeeper.Config
