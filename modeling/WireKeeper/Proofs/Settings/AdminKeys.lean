import WireKeeper.Proofs.Basic
import WireKeeper.Proofs.Text.Trim
import WireKeeper.Settings.Resolved

/-! # Which line of the administrators' keys is reported

The keys of administrators are read line by line, and the first line that is neither blank nor a key
is what the whole list is refused for. Blank lines are left out before the others are numbered: the
number in the error counts the lines in front that are not blank, which is where the line stands
only if no blank line stands in front of it.

* `IsBlankLine`, `FirstFault`: blank lines, and where the first line stands that is no key;
* `firstFault_cons_zero`, `firstFault_cons_succ`: the first fault, one line after the other;
* `readAdminKeys_eq_error`, `readAdminKeys_eq_ok`: what reading the lines gives;
* `resolve_adminKeys`: what the settings of administrators take from the lines;
* `not_reported_behind_blank`: a line that is reported in another's place. -/

namespace WireKeeper

namespace Layer

variable {line : String} {lines : List String} {position : Nat} {reason : AuthorizedKeyError}

/-! ## Blank lines -/

/-- A line that holds nothing but blanks; the empty line is one. -/
def IsBlankLine (line : String) : Prop := ∀ c ∈ line.toList, Text.isBlank c = true

/-- A line is blank or not by its characters, which are looked at one by one. -/
instance (line : String) : Decidable (IsBlankLine line) :=
  List.decidableBAll (fun c => Text.isBlank c = true) line.toList

/-- The lines that are not blank, in order. These are the ones that are read as keys. -/
def written (lines : List String) : List String := lines.filter fun line => ¬IsBlankLine line

/-- There is no line among no lines. -/
@[simp] theorem written_nil : written [] = [] := rfl

/-- A blank line is left out. -/
@[simp] theorem written_cons_blank (h : IsBlankLine line) :
    written (line :: lines) = written lines := List.filter_cons_of_neg (by simpa using h)

/-- A line that is not blank stays in front of the others. -/
@[simp] theorem written_cons (h : ¬IsBlankLine line) :
    written (line :: lines) = line :: written lines := List.filter_cons_of_pos (by simpa using h)

/-- The keys are read from the lines that are not blank, each with its number among them. The number
that an error has is this one, and not the position of the line. -/
theorem readAdminKeys_eq (lines : List String) :
    readAdminKeys lines = (written lines).zipIdx.mapM fun (line, index) =>
      (AuthorizedKey.parse line).mapError (.badAdminKey index) := by
  have hkept : (fun line : String => !(Text.trim line.toList).isEmpty) =
      fun line => decide ¬IsBlankLine line := by
    funext line
    rw [decide_not, Bool.not_inj_iff, Bool.eq_iff_iff, decide_eq_true_iff, List.isEmpty_iff]
    exact Text.trim_eq_nil_iff
  rw [readAdminKeys, hkept]
  rfl

/-! ## The first line that is no key -/

/-- The first line that is neither blank nor a key stands at `position`, and is none for this
`reason`. -/
structure FirstFault (lines : List String) (position : Nat) (reason : AuthorizedKeyError) :
    Prop where
  /-- The line itself. -/
  fault : ∃ line, lines[position]? = some line ∧ ¬IsBlankLine line ∧
    AuthorizedKey.parse line = .error reason
  /-- The lines in front of it. -/
  before : ∀ line ∈ lines.take position,
    IsBlankLine line ∨ ∃ key, AuthorizedKey.parse line = .ok key

/-- No line is at fault where there is none. -/
theorem not_firstFault_nil : ¬FirstFault [] position reason := fun h => by
  obtain ⟨line, hline, -⟩ := h.fault
  cases hline

/-- The first line is the first fault if and only if it is neither blank nor a key. -/
theorem firstFault_cons_zero :
    FirstFault (line :: lines) 0 reason ↔
      ¬IsBlankLine line ∧ AuthorizedKey.parse line = .error reason := by
  constructor
  · rintro ⟨⟨l, hl, hfault⟩, -⟩
    cases hl
    exact hfault
  · exact fun h => ⟨⟨line, rfl, h⟩, fun l hl => absurd hl List.not_mem_nil⟩

/-- A line behind the first one is the first fault if and only if the first one is blank or a key,
and the line is the first fault of the others. -/
theorem firstFault_cons_succ :
    FirstFault (line :: lines) (position + 1) reason ↔
      (IsBlankLine line ∨ ∃ key, AuthorizedKey.parse line = .ok key) ∧
        FirstFault lines position reason := by
  constructor
  · rintro ⟨hfault, hbefore⟩
    rw [List.take_succ_cons, List.forall_mem_cons] at hbefore
    exact ⟨hbefore.1, hfault, hbefore.2⟩
  · rintro ⟨hline, hfault, hbefore⟩
    refine ⟨hfault, ?_⟩
    rw [List.take_succ_cons, List.forall_mem_cons]
    exact ⟨hline, hbefore⟩

/-- A first fault is the first line, or it stands behind a first line that is no fault, one position
further than among the others. -/
theorem exists_firstFault_cons {P : Nat → AuthorizedKeyError → Prop} :
    (∃ position reason, FirstFault (line :: lines) position reason ∧ P position reason) ↔
      (¬IsBlankLine line ∧ ∃ reason, AuthorizedKey.parse line = .error reason ∧ P 0 reason) ∨
        (IsBlankLine line ∨ ∃ key, AuthorizedKey.parse line = .ok key) ∧
          ∃ position reason, FirstFault lines position reason ∧ P (position + 1) reason := by
  constructor
  · rintro ⟨position, reason, h, hP⟩
    cases position with
    | zero =>
      obtain ⟨hwritten, hparse⟩ := firstFault_cons_zero.1 h
      exact .inl ⟨hwritten, reason, hparse, hP⟩
    | succ position =>
      obtain ⟨hline, hrest⟩ := firstFault_cons_succ.1 h
      exact .inr ⟨hline, position, reason, hrest, hP⟩
  · rintro (⟨hwritten, reason, hparse, hP⟩ | ⟨hline, position, reason, hrest, hP⟩)
    · exact ⟨0, reason, firstFault_cons_zero.2 ⟨hwritten, hparse⟩, hP⟩
    · exact ⟨position + 1, reason, firstFault_cons_succ.2 ⟨hline, hrest⟩, hP⟩

/-- Some line is the first fault if and only if some line is neither blank nor a key. -/
theorem exists_firstFault_iff :
    (∃ position reason, FirstFault lines position reason) ↔
      ∃ line ∈ lines, ¬IsBlankLine line ∧ ∀ key, AuthorizedKey.parse line ≠ .ok key := by
  constructor
  · rintro ⟨position, reason, ⟨line, hline, hwritten, hparse⟩, -⟩
    refine ⟨line, List.mem_of_getElem? hline, hwritten, fun key hkey => ?_⟩
    cases hparse.symm.trans hkey
  · rintro ⟨line, hline, hwritten, hnokey⟩
    -- the first fault need not be the line at hand: it is looked for from the front
    induction lines with
    | nil => cases hline
    | cons first rest ih =>
      by_cases hfirst : IsBlankLine first ∨ ∃ key, AuthorizedKey.parse first = .ok key
      · have hrest : line ∈ rest := by
          refine (List.mem_cons.1 hline).resolve_left fun heq => ?_
          subst heq
          obtain hblank | ⟨key, hkey⟩ := hfirst
          · exact hwritten hblank
          · exact hnokey key hkey
        obtain ⟨position, reason, h⟩ := ih hrest
        exact ⟨position + 1, reason, firstFault_cons_succ.2 ⟨hfirst, h⟩⟩
      · obtain ⟨hblank, hparse⟩ := not_or.1 hfirst
        cases hresult : AuthorizedKey.parse first with
        | ok key => exact absurd ⟨key, hresult⟩ hparse
        | error reason => exact ⟨0, reason, firstFault_cons_zero.2 ⟨hblank, hresult⟩⟩

/-- The lines in front that are not blank are as many as the lines in front if and only if none of
those is blank. So the number in the error is the position of the line exactly then. -/
theorem FirstFault.length_written_eq_iff (h : FirstFault lines position reason) :
    (written (lines.take position)).length = position ↔
      ∀ line ∈ lines.take position, ¬IsBlankLine line := by
  obtain ⟨line, hline, -⟩ := h.fault
  have hbound : position < lines.length := (List.getElem?_eq_some_iff.1 hline).1
  have hlength : (lines.take position).length = position :=
    List.length_take_of_le (Nat.le_of_lt hbound)
  calc (written (lines.take position)).length = position
      ↔ (written (lines.take position)).length = (lines.take position).length := by rw [hlength]
    _ ↔ ∀ line ∈ lines.take position, ¬IsBlankLine line := by
        simp only [written, List.length_filter_eq_length_iff, decide_eq_true_iff]

/-! ## Reading the lines -/

/-- Lines are refused for the first fault, with its number among the lines that are not blank. The
numbers start at any `n`, as the induction over the lines needs it. -/
theorem mapM_written_eq_error (n : Nat) {e : SettingsError} :
    ((written lines).zipIdx n).mapM (fun (line, index) =>
        (AuthorizedKey.parse line).mapError (SettingsError.badAdminKey index)) = .error e ↔
      ∃ position reason, FirstFault lines position reason ∧
        .badAdminKey (n + (written (lines.take position)).length) reason = e := by
  induction lines generalizing n with
  | nil =>
    constructor
    · intro h
      cases h
    · rintro ⟨position, reason, h, -⟩
      exact absurd h not_firstFault_nil
  | cons first rest ih =>
    rw [exists_firstFault_cons]
    by_cases hblank : IsBlankLine first
    · -- the line is left out, and does not count
      rw [written_cons_blank hblank, ih]
      simp [hblank]
    · rw [written_cons hblank, List.zipIdx_cons, mapM_error_cons, ih]
      simp [hblank, mapError_eq_error, mapError_eq_ok, Nat.add_assoc, Nat.add_comm 1]

/-- Lines are refused for the first fault, with its number among the lines that are not blank: the
length of `written (lines.take position)`. -/
theorem readAdminKeys_eq_error {e : SettingsError} :
    readAdminKeys lines = .error e ↔ ∃ position reason, FirstFault lines position reason ∧
      .badAdminKey (written (lines.take position)).length reason = e := by
  rw [readAdminKeys_eq, mapM_written_eq_error]
  simp only [Nat.zero_add]

/-- The lines are read if and only if each that is not blank is a key, and the keys stand in their
order. -/
theorem readAdminKeys_eq_ok {keys : List AuthorizedKey} :
    readAdminKeys lines = .ok keys ↔
      List.Forall₂ (fun line key => AuthorizedKey.parse line = .ok key) (written lines) keys := by
  rw [readAdminKeys_eq]
  exact mapM_zipIdx_ok

/-- What the settings of administrators take from the lines of their keys: when they are refused and
for which line, which number that line is reported with, and which keys they have otherwise. -/
structure TakesKeys (lines : List String) (result : Except SettingsError SshSettings) : Prop where
  /-- They are refused if and only if some line is neither blank nor a key. -/
  refused_iff : (∃ e, result = .error e) ↔
    ∃ line ∈ lines, ¬IsBlankLine line ∧ ∀ key, AuthorizedKey.parse line ≠ .ok key
  /-- The error names the first such line by its number among the lines that are not blank. -/
  reported : ∀ e, result = .error e ↔ ∃ position reason, FirstFault lines position reason ∧
    .badAdminKey (written (lines.take position)).length reason = e
  /-- This is the position of the line if and only if no line in front of it is blank. -/
  own_position_iff : ∀ position reason, FirstFault lines position reason →
    (result = .error (.badAdminKey position reason) ↔
      ∀ line ∈ lines.take position, ¬IsBlankLine line)
  /-- Otherwise they have the keys of the lines that are not blank, in order. -/
  keys : ∀ settings, result = .ok settings → List.Forall₂
    (fun line key => AuthorizedKey.parse line = .ok key) (written lines) settings.adminKeys

/-- The settings of administrators fail only for their lines, and with the error of these; lines
that are not set are no lines. -/
theorem Ssh.resolve_eq_error {l : Ssh} {e : SettingsError} :
    l.resolve = .error e ↔ readAdminKeys (l.adminKeys.getD []) = .error e := by
  rw [Ssh.resolve, bind_eq_error]
  refine or_iff_left ?_
  rintro ⟨keys, -, h⟩
  cases h

/-- The keys of administrators are those of the lines that are set. An error tells the position of a
line if and only if no blank line stands in front of it. -/
theorem resolve_adminKeys (l : Ssh) : TakesKeys (l.adminKeys.getD []) l.resolve := by
  have hreported : ∀ e, l.resolve = .error e ↔
      ∃ position reason, FirstFault (l.adminKeys.getD []) position reason ∧
        .badAdminKey (written ((l.adminKeys.getD []).take position)).length reason = e :=
    fun e => Ssh.resolve_eq_error.trans readAdminKeys_eq_error
  refine ⟨?_, hreported, fun position reason h => ?_, fun settings h => ?_⟩
  · rw [← exists_firstFault_iff]
    constructor
    · rintro ⟨e, h⟩
      obtain ⟨position, reason, hfault, -⟩ := (hreported e).1 h
      exact ⟨position, reason, hfault⟩
    · rintro ⟨position, reason, hfault⟩
      exact ⟨_, (hreported _).2 ⟨position, reason, hfault, rfl⟩⟩
  · rw [(hreported _).2 ⟨position, reason, h, rfl⟩, ← h.length_written_eq_iff]
    simp
  · obtain ⟨keys, hkeys, h⟩ := bind_eq_ok.1 h
    cases h
    exact readAdminKeys_eq_ok.1 hkeys

/-- A blank line, and behind it a line whose key data is no base64: the shortest list whose error is
off. -/
def shiftedLines : List String := ["", "ssh-ed25519 !!!"]

/-- The second line is the first one that is no key, but the error has the number of the
first one. -/
theorem not_reported_behind_blank :
    FirstFault shiftedLines 1 (.notBase64 (.invalidSymbol 0 33)) ∧
      Ssh.resolve { adminKeys := some shiftedLines } =
        .error (.badAdminKey 0 (.notBase64 (.invalidSymbol 0 33))) ∧
      (SettingsError.badAdminKey 0 (.notBase64 (.invalidSymbol 0 33))).message =
        "invalid value for ssh.admin_keys[0]: invalid key data: Invalid symbol 33, offset 0." := by
  have hfirst : IsBlankLine "" := by decide
  have hsecond : ¬IsBlankLine "ssh-ed25519 !!!" := by decide
  have hparse : AuthorizedKey.parse "ssh-ed25519 !!!" =
      .error (.notBase64 (.invalidSymbol 0 33)) := by decide +kernel
  refine ⟨?_, by decide +kernel, by decide +kernel⟩
  exact firstFault_cons_succ.2 ⟨.inl hfirst, firstFault_cons_zero.2 ⟨hsecond, hparse⟩⟩

end Layer

end WireKeeper
