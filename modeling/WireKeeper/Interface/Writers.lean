import WireKeeper.Interface.Controller

/-! # Several writers of one file

Any number of **writers** may be at work on the file of a configuration while that configuration
changes. Each goes through the parts of `ConfigFile.write` in order, and holds the **lock** of the
file from before it renders until its file is in place:

* `WriteStage`: how far one writer is;
* `Writers.advance`: the next part of one writer; nothing happens while another holds the lock;
* `Change.perform`: one change of the configuration, which waits for no writer;
* `Writers.run`: any interleaving of the two. -/

namespace WireKeeper

/-- How far a writer is, in the order of its parts. From `locked` to `settled` it holds the lock. -/
inductive WriteStage where
  /-- It has not begun. -/
  | idle
  /-- It waits for the lock. -/
  | waiting
  /-- It holds the lock. -/
  | locked
  /-- It has the text of the configuration. -/
  | rendered (text : String)
  /-- Its text is in a file of its own. -/
  | staged (path : Path)
  /-- The target is replaced, or it has failed; it still holds the lock. -/
  | settled (result : Except InterfaceError Unit)
  /-- It has given the lock back. -/
  | finished (result : Except InterfaceError Unit)

/-- A change of the configuration, by one of the operations of its controller. -/
inductive Change where
  | load (config : Config.Server)
  | add (peer : Config.ServerPeer)
  | remove (name : String)
  | apply (staged : StagedPeer)

/-- Make a change; one that is refused leaves the configuration as it is, and its error is of no
interest here. -/
def Change.perform (change : Change) (c : Controller) : Controller :=
  match change with
  | .load config => c.load config
  | .add peer => (c.add peer).2
  | .remove name => (c.remove name).2
  | .apply staged => (Controller.apply c staged).2

/-- A controller, its disk, and its writers by number. Any number of them can be at work, for all
are idle at first. -/
structure Writers where
  controller : Controller
  disk : Disk
  /-- The writer that holds the lock of the file. -/
  holder : Option Nat := none
  stage : Nat → WriteStage := fun _ => .idle

/-- One step of a run: which one comes next is up to nobody, so every list of steps is a run. -/
inductive WritersStep where
  | change (c : Change)
  /-- The next part of a writer. -/
  | advance (writer : Nat)

namespace Writers

/-- Put a writer at a stage; all others stay where they are. -/
def moveTo (s : Writers) (w : Nat) (stage : WriteStage) : Writers :=
  { s with stage := fun v => if v = w then stage else s.stage v }

/-- `(s.moveTo w stage).stage v` is the new stage for `v = w` and the old one for any
other writer. -/
@[simp] theorem stage_moveTo (s : Writers) (w : Nat) (stage : WriteStage) (v : Nat) :
    (s.moveTo w stage).stage v = if v = w then stage else s.stage v := rfl

/-- The text of the configuration as it is now. Without a configuration the writer is done, with
that error. -/
def render (s : Writers) (w : Nat) : Writers :=
  match ConfigFile.render s.controller with
  | .ok text => s.moveTo w (.rendered text)
  | .error e => s.moveTo w (.settled (.error e))

/-- A file with the text, beside the target; the writer is done if there can be none. -/
def stageFile (s : Writers) (w : Nat) (text : String) : Writers :=
  let (result, disk) := ConfigFile.stage s.controller text s.disk
  let s := { s with disk := disk }
  match result with
  | .ok path => s.moveTo w (.staged path)
  | .error e => s.moveTo w (.settled (.error (.file e.message)))

/-- The staged file in the place of the target; it is dropped if it cannot go there. -/
def persist (s : Writers) (w : Nat) (path : Path) : Writers :=
  match ConfigFile.persist s.controller path s.disk with
  | .ok disk => { s with disk := disk }.moveTo w (.settled (.ok ()))
  | .error e =>
    { s with disk := s.disk.remove path }.moveTo w (.settled (.error (.file e.message)))

/-- The next part of a writer. One that waits does so until nobody holds the lock, and one that has
finished does nothing more. -/
def advance (s : Writers) (w : Nat) : Writers :=
  match s.stage w with
  | .idle => s.moveTo w .waiting
  -- the only part that others can hold up
  | .waiting => if s.holder.isSome then s else { s with holder := some w }.moveTo w .locked
  | .locked => s.render w
  | .rendered text => s.stageFile w text
  | .staged path => s.persist w path
  | .settled result => { s with holder := none }.moveTo w (.finished result)
  | .finished _ => s

/-- Make one step: a change at once, however far the writers are, or the next part of one
of them. -/
def step (s : Writers) : WritersStep → Writers
  | .change c => { s with controller := c.perform s.controller }
  | .advance w => s.advance w

/-- Make steps one after another, in the order of the list. -/
def run (s : Writers) (steps : List WritersStep) : Writers := steps.foldl step s

/-- Without steps nothing happens: `s.run [] = s`. -/
@[simp] theorem run_nil (s : Writers) : s.run [] = s := rfl

/-- `s.run (x :: xs) = (s.step x).run xs`: the first step is made first, and the rest from where it
leads. -/
@[simp] theorem run_cons (s : Writers) (x : WritersStep) (xs : List WritersStep) :
    s.run (x :: xs) = (s.step x).run xs := rfl

/-- A writer that is alone writes the file as `ConfigFile.write` does: after its six parts the disk
is the same. -/
theorem disk_run_alone (c : Controller) (d : Disk) (w : Nat) :
    (run ⟨c, d, none, fun _ => .idle⟩ (List.replicate 6 (.advance w))).disk
      = (ConfigFile.write c d).2 := by
  simp only [List.replicate, run_cons, run_nil, step]
  cases hr : ConfigFile.render c with
  | error e => simp [advance, render, ConfigFile.write, moveTo, hr]
  | ok text =>
    rcases hs : ConfigFile.stage c text d with ⟨_ | path, d'⟩
    · simp [advance, render, stageFile, ConfigFile.write, moveTo, hr, hs]
    · cases hp : ConfigFile.persist c path d' <;>
        simp [advance, render, stageFile, persist, ConfigFile.write, moveTo, hr, hs, hp]

/-- The file as it is now: what is at the path of the configuration, if anything is. -/
def target (s : Writers) : Option Node := s.disk.node? (s.disk.resolve s.controller.configPath)

end Writers

end WireKeeper
