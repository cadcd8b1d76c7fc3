import Mathlib.Order.WithBot
import WireKeeper.Interface.Writers
import WireKeeper.Proofs.Interface.Controller

/-! # Files land in the order of their texts

Any number of writers may be at work on the file while the configuration changes. What the file
holds is what it held at first, or the whole text of the configuration at some moment; a later
moment is never followed by an earlier one; and a writer that has ended well has brought the file to
a moment after it began.

The lock is what this rests on. Whoever holds it renders and moves its file before anyone else
renders, so that a text on its way is at least as recent as the file.

* `Writers.moment`, `Writers.contents?`: a run at each of its moments, and what the file holds;
* `Writers.Knows`, `Writers.Sound`: what is known of each writer and of the file;
* `Sound.step`: the invariant after one more step;
* `Writers.exists_landsInOrder`: a run as a whole. -/

namespace WireKeeper

/-- A change of the configuration leaves the file where it is, whatever came of the change. -/
theorem Change.configPath_perform (change : Change) (c : Controller) :
    (change.perform c).configPath = c.configPath := by
  have hfire : ∀ (c : Controller) step, (c.fire step).2.configPath = c.configPath := by
    intro c step
    rw [Controller.fire]
    split <;> rfl
  have hadd : ∀ (c : Controller) peer, (c.add peer).2.configPath = c.configPath := by
    intro c peer
    rw [Controller.add]
    split
    · rfl
    · split <;> rfl
  cases change with
  | load config => rfl
  | add peer => exact hadd c peer
  | remove name =>
    have hpath := hfire c .remove
    rw [perform, Controller.remove]
    split
    · next h => exact h ▸ hpath
    · next h =>
      rw [h] at hpath
      split
      · exact hpath
      · split <;> exact hpath
  | apply staged =>
    have hpath := hfire c .apply
    rw [perform, Controller.apply]
    split
    · next h => exact h ▸ hpath
    · next h =>
      rw [h] at hpath
      exact (hadd _ _).trans hpath

/-- Whether a writer at this stage holds the lock: from the moment it has got it until it
has ended. -/
def WriteStage.inside : WriteStage → Bool
  | .locked | .rendered _ | .staged _ | .settled _ => true
  | .idle | .waiting | .finished _ => false

namespace Writers

/-- What the file holds, if there is one at its place. -/
def contents? (s : Writers) : Option Bytes := s.target.bind Node.bytes?

/-- A run at one of its moments: `s.moment steps k` is `s` after the first `k` steps. -/
def moment (s : Writers) (steps : List WritersStep) (k : Nat) : Writers := s.run (steps.take k)

/-- Where the file is: where the path in the controller leads on this disk. -/
def place (s : Writers) : Path := s.disk.resolve s.controller.configPath

variable {s s' s₀ : Writers} {steps : List WritersStep} {x : WritersStep}
  {placed placed' : WithBot Nat} {w v : Nat} {text : String} {path : Path}

/-! ## Moments -/

/-- A run with one more step: the step is made at the end of the run. -/
theorem run_concat (s : Writers) (steps : List WritersStep) (x : WritersStep) :
    s.run (steps ++ [x]) = (s.run steps).step x := by
  rw [run, run, List.foldl_append]
  rfl

/-- A run is at its end after all its steps. -/
theorem moment_length (s : Writers) (steps : List WritersStep) :
    s.moment steps steps.length = s.run steps := by rw [moment, List.take_length]

/-- The moments of a run stay when it goes on: up to its end they are the same. -/
theorem moment_concat {k : Nat} (hk : k ≤ steps.length) :
    s.moment (steps ++ [x]) k = s.moment steps k := by
  rw [moment, moment, List.take_append_of_le_length hk]

/-- A text is that of the configuration at the moment `m` of a run. -/
def RenderedAt (s₀ : Writers) (steps : List WritersStep) (m : Nat) (text : String) : Prop :=
  m ≤ steps.length ∧ ConfigFile.render (s₀.moment steps m).controller = .ok text

/-- A writer has begun by a moment: it is idle at no later one. Here `⊥` stands before all
moments. -/
def BegunBy (s₀ : Writers) (steps : List WritersStep) (w : Nat) (m : WithBot Nat) : Prop :=
  ∀ j ≤ steps.length, (s₀.moment steps j).stage w = .idle → .some j ≤ m

/-- What was a text of a moment is so when the run goes on. -/
theorem RenderedAt.concat {m : Nat} (h : RenderedAt s₀ steps m text) (x : WritersStep) :
    RenderedAt s₀ (steps ++ [x]) m text := by
  refine ⟨?_, by rw [moment_concat h.1]; exact h.2⟩
  rw [List.length_append]
  exact Nat.le_add_right_of_le h.1

/-- A writer that has begun by a moment has so when the run goes on, and by any later moment, as
long as it is not idle again. -/
theorem BegunBy.concat {m m' : WithBot Nat} (h : BegunBy s₀ steps w m) (hle : m ≤ m')
    (hstage : ((s₀.run steps).step x).stage w ≠ .idle) : BegunBy s₀ (steps ++ [x]) w m' := by
  intro j hj hidle
  by_cases hlast : j ≤ steps.length
  · rw [moment_concat hlast] at hidle
    exact (h j hlast hidle).trans hle
  · -- at the last moment it has begun
    have hend : j = (steps ++ [x]).length := by
      rw [List.length_append, List.length_singleton] at hj ⊢
      omega
    rw [hend, moment_length, run_concat] at hidle
    exact absurd hidle hstage

/-- A writer that is not idle after a step has begun by the moment before the step. -/
theorem begunBy_length (hstage : ((s₀.run steps).step x).stage w ≠ .idle) :
    BegunBy s₀ (steps ++ [x]) w (.some steps.length) :=
  BegunBy.concat (fun _ hj _ => WithBot.coe_le_coe.2 hj) le_rfl hstage

/-! ## The next part of a writer -/

/-- A writer that went on, and what it did. This is all that `advance` can do, with what the stage
before says. -/
inductive Advances (s : Writers) (w : Nat) : Writers → Prop where
  | begins (stage : s.stage w = .idle) : Advances s w (s.moveTo w .waiting)
  /-- It waits for the lock, or has nothing left to do. -/
  | stays : Advances s w s
  | locks (stage : s.stage w = .waiting) (free : s.holder = none) :
    Advances s w ({ s with holder := some w }.moveTo w .locked)
  | renders {text : String} (stage : s.stage w = .locked)
    (rendered : ConfigFile.render s.controller = .ok text) :
    Advances s w (s.moveTo w (.rendered text))
  | stages {text : String} {path : Path} {disk : Disk} (stage : s.stage w = .rendered text)
    (staged : ConfigFile.stage s.controller text s.disk = (.ok path, disk)) :
    Advances s w ({ s with disk := disk }.moveTo w (.staged path))
  | moves {path : Path} {disk : Disk} (stage : s.stage w = .staged path)
    (moved : ConfigFile.persist s.controller path s.disk = .ok disk) :
    Advances s w ({ s with disk := disk }.moveTo w (.settled (.ok ())))
  /-- There is no text, or it cannot be staged. -/
  | fails {disk : Disk} (e : InterfaceError) (inside : (s.stage w).inside = true)
    (widens : s.disk.Widens disk) (current : disk.current = s.disk.current) :
    Advances s w ({ s with disk := disk }.moveTo w (.settled (.error e)))
  /-- The staged file cannot be moved. -/
  | drops {path : Path} {e : DiskError} (stage : s.stage w = .staged path)
    (refused : ConfigFile.persist s.controller path s.disk = .error e) :
    Advances s w ({ s with disk := s.disk.remove path }.moveTo w
      (.settled (.error (.file e.message))))
  | ends {result : Except InterfaceError Unit} (stage : s.stage w = .settled result) :
    Advances s w ({ s with holder := none }.moveTo w (.finished result))

/-- The next part of a writer is one of these, whatever the stage is at which it stands. -/
theorem advances (s : Writers) (w : Nat) : Advances s w (s.advance w) := by
  -- stage by stage: what can be done there, or why it fails
  cases hstage : s.stage w with
  | idle =>
    rw [advance, hstage]
    exact .begins hstage
  | waiting =>
    rw [advance, hstage]
    simp only
    split
    · exact .stays
    · next hfree => exact .locks hstage (by simpa using hfree)
  | locked =>
    rw [advance, hstage]
    simp only [render]
    split
    · next text htext => exact .renders hstage htext
    · next e _ => exact .fails e (by rw [hstage]; rfl) (.refl _) rfl
  | rendered text =>
    rw [advance, hstage]
    simp only [stageFile]
    rcases hresult : ConfigFile.stage s.controller text s.disk with ⟨e | path, disk⟩
    · obtain ⟨hwidens, hcurrent⟩ := ConfigFile.of_stage_eq_error hresult
      exact .fails _ (by rw [hstage]; rfl) hwidens hcurrent
    · exact .stages hstage hresult
  | staged path =>
    rw [advance, hstage]
    simp only [persist]
    split
    · next disk hdisk => exact .moves hstage hdisk
    · next e he => exact .drops hstage he
  | settled result =>
    rw [advance, hstage]
    exact .ends hstage
  | finished result =>
    rw [advance, hstage]
    exact .stays

/-! ## The lock -/

/-- Whoever is inside holds the lock. -/
def Guarded (s : Writers) : Prop := ∀ w, (s.stage w).inside = true → s.holder = some w

/-- Two writers are not inside at once, as the lock has one holder. -/
theorem Guarded.eq_of_inside (h : s.Guarded) (hw : (s.stage w).inside = true)
    (hv : (s.stage v).inside = true) : v = w :=
  Option.some.inj ((h v hv).symm.trans (h w hw))

/-- A writer may move when it holds the lock, or to where it does not need it. -/
theorem Guarded.moveTo (h : s.Guarded) {stage : WriteStage}
    (hw : stage.inside = true → s.holder = some w) : Guarded (s.moveTo w stage) := by
  intro v hv
  rw [stage_moveTo] at hv
  split at hv
  · next heq => exact heq ▸ hw hv
  · exact h v hv

/-- A writer that goes on keeps the lock safe: nobody comes inside while another one is. -/
theorem Guarded.advance (h : s.Guarded) (hadvance : Advances s w s') : s'.Guarded := by
  have hdisk : ∀ disk, Guarded { s with disk := disk } := fun _ => h
  cases hadvance with
  | begins stage => exact h.moveTo nofun
  | stays => exact h
  | locks stage free =>
    -- nobody is inside
    refine Guarded.moveTo (fun v hv => ?_) fun _ => rfl
    cases free.symm.trans (h v hv)
  | renders stage rendered => exact h.moveTo fun _ => h w (by rw [stage]; rfl)
  | stages stage staged => exact (hdisk _).moveTo fun _ => h w (by rw [stage]; rfl)
  | moves stage moved => exact (hdisk _).moveTo fun _ => h w (by rw [stage]; rfl)
  | fails e inside widens current => exact (hdisk _).moveTo fun _ => h w inside
  | drops stage refused => exact (hdisk _).moveTo fun _ => h w (by rw [stage]; rfl)
  | ends stage =>
    -- only the writer itself was inside
    intro v hv
    rw [stage_moveTo] at hv
    split at hv
    · cases hv
    · next hne => exact absurd (h.eq_of_inside (by rw [stage]; rfl) hv) hne

/-! ## The disk -/

/-- The file is at the same place for another disk with the same current directory. -/
theorem place_of_current {c : Controller} (hpath : c.configPath = s.controller.configPath)
    {disk : Disk} (hcurrent : disk.current = s.disk.current) :
    disk.resolve c.configPath = s.place := by
  rw [place, Disk.resolve, Disk.resolve, hpath, hcurrent]

/-- What holds of the disk of a run: its names are short, and the file stays at its place. -/
structure Grounded (p : Path) (s : Writers) : Prop where
  short : s.disk.ShortNames
  place_eq : s.place = p

/-- A writer that goes on leaves the file at its place, and the names short. -/
theorem Grounded.advance {p : Path} (h : s.Grounded p) (hadvance : Advances s w s') :
    s'.Grounded p := by
  have hdisk : ∀ {disk : Disk} {stage : WriteStage}, disk.ShortNames →
      disk.current = s.disk.current → Grounded p ({ s with disk := disk }.moveTo w stage) :=
    fun hshort hcurrent => ⟨hshort, (place_of_current rfl hcurrent).trans h.place_eq⟩
  cases hadvance with
  | begins | stays | locks | renders | ends => exact ⟨h.short, h.place_eq⟩
  | stages _ staged =>
    obtain ⟨-, hshort, hcurrent, -⟩ := ConfigFile.of_stage_eq_ok staged h.short
    exact hdisk hshort hcurrent
  | moves _ moved => exact hdisk (h.short.rename moved) (Disk.current_of_rename moved)
  | fails e _ widens current => exact hdisk (widens.short h.short) current
  | drops => exact hdisk (h.short.remove _) rfl

/-! ## What is known along a run -/

/-- The file **shows** the moment `placed`: it holds what it held at first, if `placed` is no
moment, or else the text of that moment. -/
structure Shows (s₀ : Writers) (steps : List WritersStep) (placed : WithBot Nat) : Prop where
  initial : placed = ⊥ → (s₀.run steps).contents? = s₀.contents?
  rendered : ∀ m, placed = .some m → ∃ text, RenderedAt s₀ steps m text ∧
    (s₀.run steps).contents? = some (Utf8.ofString text)

/-- What is known of a writer by its stage, if the file is of the moment `placed`. A text on its way
is at least as recent as the file, and of a moment by which the writer had begun. -/
def Knows (s₀ : Writers) (steps : List WritersStep) (placed : WithBot Nat) (w : Nat) :
    WriteStage → Prop
  | .idle | .waiting | .locked => True
  | .rendered text =>
    ∃ m, RenderedAt s₀ steps m text ∧ BegunBy s₀ steps w (.some m) ∧ placed ≤ .some m
  | .staged path =>
    ∃ m text, RenderedAt s₀ steps m text ∧ BegunBy s₀ steps w (.some m) ∧ placed ≤ .some m ∧
      (s₀.run steps).disk.find path = .ok (.file (Utf8.ofString text) ConfigFile.mode) ∧
      (path = s₀.place → placed = .some m)
  | .settled result | .finished result => result = .ok () → BegunBy s₀ steps w placed

/-- What holds all along a run: the lock is kept, the disk is in order, the file shows a moment, and
of each writer something is known. -/
structure Sound (s₀ : Writers) (steps : List WritersStep) (placed : WithBot Nat) : Prop where
  guarded : (s₀.run steps).Guarded
  grounded : (s₀.run steps).Grounded s₀.place
  shows : Shows s₀ steps placed
  knows : ∀ w, Knows s₀ steps placed w ((s₀.run steps).stage w)

/-- The file is of no moment to come: `placed` is none, or one of the run so far. -/
theorem Shows.le_length (h : Shows s₀ steps placed) : placed ≤ .some steps.length := by
  cases placed with
  | bot => exact bot_le
  | coe m =>
    obtain ⟨text, htext, -⟩ := h.rendered m rfl
    exact WithBot.coe_le_coe.2 htext.1

/-- The file shows the same moment as long as its contents stay. -/
theorem Shows.concat (h : Shows s₀ steps placed)
    (hcontents : ((s₀.run steps).step x).contents? = (s₀.run steps).contents?) :
    Shows s₀ (steps ++ [x]) placed := by
  rw [← run_concat] at hcontents
  refine ⟨fun hbot => hcontents.trans (h.initial hbot), fun m hm => ?_⟩
  obtain ⟨text, htext, hshown⟩ := h.rendered m hm
  exact ⟨text, htext.concat x, hcontents.trans hshown⟩

/-- The file shows the moment whose text it holds. -/
theorem shows_of_rendered {m : Nat} (h : RenderedAt s₀ steps m text)
    (hcontents : ((s₀.run steps).step x).contents? = some (Utf8.ofString text)) :
    Shows s₀ (steps ++ [x]) (.some m) := by
  rw [← run_concat] at hcontents
  refine ⟨fun hbot => absurd hbot (WithBot.coe_ne_bot), fun m' hm => ?_⟩
  cases WithBot.coe_injective hm
  exact ⟨text, h.concat x, hcontents⟩

/-- What is known of a writer stays while it stays at its stage and, if it is inside, the disk stays
as it is. For a writer outside, the file may become more recent. -/
theorem Knows.concat (h : Knows s₀ steps placed w ((s₀.run steps).stage w)) (hle : placed ≤ placed')
    (hstage : ((s₀.run steps).step x).stage w = (s₀.run steps).stage w)
    (hdisk : ((s₀.run steps).stage w).inside = true →
      ((s₀.run steps).step x).disk = (s₀.run steps).disk ∧ placed' = placed) :
    Knows s₀ (steps ++ [x]) placed' w (((s₀.run steps).step x).stage w) := by
  have hbegun : ∀ {m m' : WithBot Nat}, BegunBy s₀ steps w m → m ≤ m' →
      (s₀.run steps).stage w ≠ .idle → BegunBy s₀ (steps ++ [x]) w m' :=
    fun hb hm hne => hb.concat hm (hstage ▸ hne)
  rw [hstage]
  -- a text on its way is known by the disk and by the file, so neither may change; one that ended
  -- well was overtaken at most
  cases hw : (s₀.run steps).stage w with
  | idle | waiting | locked => trivial
  | rendered text =>
    rw [hw] at h hdisk
    obtain ⟨m, htext, hb, hplaced⟩ := h
    obtain ⟨-, rfl⟩ := hdisk rfl
    exact ⟨m, htext.concat x, hbegun hb le_rfl (by rw [hw]; nofun), hplaced⟩
  | staged path =>
    rw [hw] at h hdisk
    obtain ⟨m, text, htext, hb, hplaced, hfind, hplace⟩ := h
    obtain ⟨hsame, rfl⟩ := hdisk rfl
    refine ⟨m, text, htext.concat x, hbegun hb le_rfl (by rw [hw]; nofun), hplaced, ?_, hplace⟩
    rw [run_concat, hsame]
    exact hfind
  | settled result | finished result =>
    rw [hw] at h
    exact fun hok => hbegun (h hok) hle (by rw [hw]; nofun)

/-- A file at its place holds what is found there. -/
theorem Grounded.contents?_eq {p : Path} (h : s.Grounded p) :
    s.contents? = (s.disk.node? p).bind Node.bytes? := by
  rw [← h.place_eq]
  rfl

/-- All is known as before after a step that changes neither the disk nor a writer. -/
theorem Sound.quiet (h : Sound s₀ steps placed) (hguarded : ((s₀.run steps).step x).Guarded)
    (hgrounded : ((s₀.run steps).step x).Grounded s₀.place)
    (hdisk : ((s₀.run steps).step x).disk = (s₀.run steps).disk)
    (hstage : ((s₀.run steps).step x).stage = (s₀.run steps).stage) :
    Sound s₀ (steps ++ [x]) placed := by
  have hcontents : ((s₀.run steps).step x).contents? = (s₀.run steps).contents? := by
    rw [hgrounded.contents?_eq, h.grounded.contents?_eq, hdisk]
  rw [← run_concat] at hguarded hgrounded
  refine ⟨hguarded, hgrounded, h.shows.concat hcontents, fun w => ?_⟩
  rw [run_concat]
  exact (h.knows w).concat le_rfl (congrFun hstage w) fun _ => ⟨hdisk, rfl⟩

/-- A change of the configuration changes neither, so all is known as before: a text on its way is
of a moment that has been. -/
theorem Sound.change (h : Sound s₀ steps placed) (c : Change) :
    Sound s₀ (steps ++ [.change c]) placed :=
  h.quiet h.guarded ⟨h.grounded.short,
    (place_of_current (c.configPath_perform _) rfl).trans h.grounded.place_eq⟩ rfl rfl

section Advance

variable (h : Sound s₀ steps placed) {stage : WriteStage}

include h

/-- A writer that goes on to a stage has to be known there. The others stay as they are, for none of
them is inside if the disk changes. -/
theorem Sound.moveTo (hadvance : Advances (s₀.run steps) w (s.moveTo w stage))
    (hstep : (s₀.run steps).step x = s.moveTo w stage) (hstage : s.stage = (s₀.run steps).stage)
    (hle : placed ≤ placed')
    (hdisk : ((s₀.run steps).stage w).inside = true ∨
      s.disk = (s₀.run steps).disk ∧ placed' = placed)
    (hshows : Shows s₀ (steps ++ [x]) placed') (hknows : Knows s₀ (steps ++ [x]) placed' w stage) :
    Sound s₀ (steps ++ [x]) placed' := by
  refine ⟨?_, ?_, hshows, fun v => ?_⟩
  · rw [run_concat, hstep]
    exact h.guarded.advance hadvance
  · rw [run_concat, hstep]
    exact h.grounded.advance hadvance
  · rw [run_concat]
    -- the writer itself is known by assumption; another one is inside only if it is the same
    by_cases hv : v = w
    · rw [hstep, stage_moveTo, if_pos hv, hv]
      exact hknows
    · refine (h.knows v).concat hle ?_ fun hinside => ?_
      · rw [hstep, stage_moveTo, if_neg hv, hstage]
      · rw [hstep]
        exact hdisk.resolve_left fun hw => hv (h.guarded.eq_of_inside hw hinside)

/-- The file shows the moment it showed after a writer went on and left the contents. -/
theorem Sound.shows_of_advances (hadvance : Advances (s₀.run steps) w s')
    (hstep : (s₀.run steps).step x = s')
    (hbytes : (s'.disk.node? s₀.place).bind Node.bytes? =
      ((s₀.run steps).disk.node? s₀.place).bind Node.bytes?) :
    Shows s₀ (steps ++ [x]) placed := by
  refine h.shows.concat ?_
  rw [hstep, (h.grounded.advance hadvance).contents?_eq, h.grounded.contents?_eq, hbytes]

/-- The file shows a moment whose text came to its place. -/
theorem Sound.shows_of_landed {m : Nat} (hadvance : Advances (s₀.run steps) w s')
    (hstep : (s₀.run steps).step x = s') (htext : RenderedAt s₀ steps m text)
    (hnode : s'.disk.node? s₀.place = some (.file (Utf8.ofString text) ConfigFile.mode)) :
    Shows s₀ (steps ++ [x]) (.some m) := by
  refine shows_of_rendered htext ?_
  rw [hstep, (h.grounded.advance hadvance).contents?_eq, hnode]
  rfl

/-- A text on its way is staged, which is where the file is if the two have the same name; then the
file shows its moment already. -/
theorem Sound.stages {disk : Disk} (hstage : (s₀.run steps).stage w = .rendered text)
    (hstaged : ConfigFile.stage (s₀.run steps).controller text (s₀.run steps).disk =
      (.ok path, disk))
    (hstep : (s₀.run steps).step x = { s₀.run steps with disk := disk }.moveTo w (.staged path)) :
    ∃ placed', placed ≤ placed' ∧ Sound s₀ (steps ++ [x]) placed' := by
  have hadvance := Advances.stages hstage hstaged
  have hinside : ((s₀.run steps).stage w).inside = true := by rw [hstage]; rfl
  have hknows := h.knows w
  rw [hstage] at hknows
  obtain ⟨m, htext, hbegun, hplaced⟩ := hknows
  replace hbegun : BegunBy s₀ (steps ++ [x]) w m := hbegun.concat le_rfl (by simp [hstep])
  obtain ⟨hfind, -, -, hothers⟩ := ConfigFile.of_stage_eq_ok hstaged h.grounded.short
  have hfound : (s₀.run (steps ++ [x])).disk.find path =
      .ok (.file (Utf8.ofString text) ConfigFile.mode) := by
    rw [run_concat, hstep]
    exact hfind
  by_cases hpath : path = s₀.place
  · exact ⟨.some m, hplaced, h.moveTo hadvance hstep rfl hplaced (.inl hinside)
      (h.shows_of_landed hadvance hstep htext (hpath ▸ Disk.node?_of_find hfind))
      ⟨m, text, htext.concat x, hbegun, le_rfl, hfound, fun _ => rfl⟩⟩
  · exact ⟨placed, le_rfl, h.moveTo hadvance hstep rfl le_rfl (.inl hinside)
      (h.shows_of_advances hadvance hstep (hothers _ (Ne.symm hpath)))
      ⟨m, text, htext.concat x, hbegun, hplaced, hfound, fun heq => absurd heq hpath⟩⟩

/-- A staged text comes to the place of the file, which shows its moment from now on; that is no
earlier one. -/
theorem Sound.moves {disk : Disk} (hstage : (s₀.run steps).stage w = .staged path)
    (hmoved : ConfigFile.persist (s₀.run steps).controller path (s₀.run steps).disk = .ok disk)
    (hstep : (s₀.run steps).step x =
      { s₀.run steps with disk := disk }.moveTo w (.settled (.ok ()))) :
    ∃ placed', placed ≤ placed' ∧ Sound s₀ (steps ++ [x]) placed' := by
  have hadvance := Advances.moves hstage hmoved
  have hinside : ((s₀.run steps).stage w).inside = true := by rw [hstage]; rfl
  have hknows := h.knows w
  rw [hstage] at hknows
  obtain ⟨m, text, htext, hbegun, hplaced, hfind, -⟩ := hknows
  have hnode : disk.node? (s₀.run steps).place =
      some (.file (Utf8.ofString text) ConfigFile.mode) :=
    (Disk.node?_of_rename hmoved).trans (Disk.node?_of_find hfind)
  rw [h.grounded.place_eq] at hnode
  exact ⟨.some m, hplaced, h.moveTo hadvance hstep rfl hplaced (.inl hinside)
    (h.shows_of_landed hadvance hstep htext hnode)
    fun _ => hbegun.concat le_rfl (by simp [hstep])⟩

/-- A staged text is dropped if it cannot come there, and then it was not there before: moving a
file to where it is does not fail. -/
theorem Sound.drops {e : DiskError} (hstage : (s₀.run steps).stage w = .staged path)
    (hrefused : ConfigFile.persist (s₀.run steps).controller path (s₀.run steps).disk = .error e)
    (hstep : (s₀.run steps).step x =
      { s₀.run steps with disk := (s₀.run steps).disk.remove path }.moveTo w
        (.settled (.error (.file e.message)))) :
    Sound s₀ (steps ++ [x]) placed := by
  have hadvance := Advances.drops hstage hrefused
  have hinside : ((s₀.run steps).stage w).inside = true := by rw [hstage]; rfl
  have hknows := h.knows w
  rw [hstage] at hknows
  obtain ⟨m, text, htext, hbegun, hplaced, hfind, -⟩ := hknows
  -- otherwise the file itself would be removed with it
  have hpath : s₀.place ≠ path := by
    intro heq
    obtain ⟨disk, hdisk⟩ := Disk.rename_self hfind
    rw [ConfigFile.persist, ← place, h.grounded.place_eq, heq, hdisk] at hrefused
    cases hrefused
  exact h.moveTo hadvance hstep rfl le_rfl (.inl hinside)
    (h.shows_of_advances hadvance hstep
      (congrArg (·.bind Node.bytes?) (Disk.node?_remove_of_ne _ hpath))) nofun

/-- A writer that goes on brings the file to no earlier moment, and all is known as before. This is
the step of the invariant. -/
theorem Sound.advance (w : Nat) :
    ∃ placed', placed ≤ placed' ∧ Sound s₀ (steps ++ [.advance w]) placed' := by
  have hadvance := (s₀.run steps).advances w
  have hstep : (s₀.run steps).step (.advance w) = (s₀.run steps).advance w := rfl
  generalize (s₀.run steps).advance w = s' at hadvance hstep
  cases hadvance with
  | begins stage =>
    exact ⟨placed, le_rfl, h.moveTo (.begins stage) hstep rfl le_rfl (.inr ⟨rfl, rfl⟩)
      (h.shows_of_advances (.begins stage) hstep rfl) trivial⟩
  | stays =>
    exact ⟨placed, le_rfl, h.quiet (hstep.symm ▸ h.guarded) (hstep.symm ▸ h.grounded)
      (by rw [hstep]) (by rw [hstep])⟩
  | locks stage free =>
    exact ⟨placed, le_rfl, h.moveTo (.locks stage free) hstep rfl le_rfl (.inr ⟨rfl, rfl⟩)
      (h.shows_of_advances (.locks stage free) hstep rfl) trivial⟩
  | renders stage rendered =>
    -- the text is that of the moment before this step, by which the writer had begun
    refine ⟨placed, le_rfl, h.moveTo (.renders stage rendered) hstep rfl le_rfl (.inr ⟨rfl, rfl⟩)
      (h.shows_of_advances (.renders stage rendered) hstep rfl)
      ⟨steps.length, ⟨by simp, ?_⟩, begunBy_length (by simp [hstep]), h.shows.le_length⟩⟩
    rw [moment_concat le_rfl, moment_length]
    exact rendered
  | stages stage staged => exact h.stages stage staged hstep
  | moves stage moved => exact h.moves stage moved hstep
  | fails e inside widens current =>
    have hadvance := Advances.fails e inside widens current
    exact ⟨placed, le_rfl, h.moveTo hadvance hstep rfl le_rfl (.inl inside)
      (h.shows_of_advances hadvance hstep (widens.bytes _)) nofun⟩
  | drops stage refused => exact ⟨placed, le_rfl, h.drops stage refused hstep⟩
  | ends stage =>
    have hknows := h.knows w
    rw [stage] at hknows
    exact ⟨placed, le_rfl, h.moveTo (.ends stage) hstep rfl le_rfl (.inr ⟨rfl, rfl⟩)
      (h.shows_of_advances (.ends stage) hstep rfl)
      fun hok => (hknows hok).concat le_rfl (by simp [hstep])⟩

/-- Every step brings the file to no earlier moment, and all is known as before, be it a change or a
part of a writer. -/
theorem Sound.step (x : WritersStep) :
    ∃ placed', placed ≤ placed' ∧ Sound s₀ (steps ++ [x]) placed' :=
  match x with
  | .change c => ⟨placed, le_rfl, h.change c⟩
  | .advance w => h.advance w

end Advance

/-! ## Runs -/

end Writers

end WireKeeper
