import WireKeeper.Proofs.Interface.Controller

/-! # Calls of a controller

A peer that was staged can be applied at any time and any number of times, whatever happened since
it was checked. The names of the peers stay different all the same, because applying checks again.

A **call** is one use of a controller, or an arm. What each one answers and which peers it leaves is
said once more as a relation, by whether the name is there and whether the step is armed:

* `Gives`: the relation, with one rule for each answer and its condition;
* `Call.concerns`, `armedBy`: which arms are still to fire, read off the calls alone;
* `calls_exact`: every call gives what the relation says, after any calls, and an arm makes one
  later call fail. -/

namespace WireKeeper.Controller

open Config (ServerPeer)

/-- One use of a controller, or an arm that makes a later one fail. -/
inductive Call where
  | arm (step : ArmedStep)
  | has (name : String)
  | stage (peer : ServerPeer)
  | apply (staged : StagedPeer)
  | add (peer : ServerPeer)
  | remove (name : String)
  deriving DecidableEq

/-- What a call comes back with. -/
inductive Answer where
  | done
  | found (isThere : Bool)
  | staged (staged : StagedPeer)
  | failed (e : InterfaceError)
  deriving DecidableEq

/-- The answer that a result is: what `answer` makes of a success, or the failure. -/
def Answer.of {α : Type} (answer : α → Answer) : Except InterfaceError α → Answer
  | .ok a => answer a
  | .error e => .failed e

/-- The answer of a step that was armed: the tool failed, with the text of the rehearsal. -/
def Answer.injected (step : ArmedStep) : Answer :=
  .failed (.toolFailed step.shown Rehearsal.injected)

/-- Make a call: its answer, and the controller after it. -/
def call (c : Controller) : Call → Answer × Controller
  | .arm step => (.done, c.arm step)
  | .has name => (.of .found (c.has name), c)
  | .stage peer => (.of .staged (c.stage peer), c)
  | .apply staged => (c.apply staged).map (.of fun _ => .done) id
  | .add peer => (c.add peer).map (.of fun _ => .done) id
  | .remove name => (c.remove name).map (.of fun _ => .done) id

/-- The controller after some calls, one after the other. -/
def afterAll (c : Controller) (calls : List Call) : Controller :=
  calls.foldl (fun c x => (c.call x).2) c

/-- What the calls are answered, in their order. -/
def answers (c : Controller) : List Call → List Answer
  | [] => []
  | x :: calls => (c.call x).1 :: (c.call x).2.answers calls

/-- The step that a call is, if it can be armed: applying or removing. -/
def Call.step? : Call → Option ArmedStep
  | .apply _ => some .apply
  | .remove _ => some .remove
  | _ => none

/-- Whether a call arms a step or is that step, and so says whether it is armed afterwards. -/
def Call.concerns (step : ArmedStep) (x : Call) : Bool :=
  x = .arm step || x.step? = some step

/-- Which steps are armed after some calls, when some were `before`: those with an arm as the last
call that concerns them. -/
def armedBy (before : ArmedStep → Prop) (calls : List Call) (step : ArmedStep) : Prop :=
  match calls.findRev? (Call.concerns step) with
  | some x => x = .arm step
  | none => before step

/-- What a call answers and which peers it leaves, by the peers before it and the steps that are
armed. A staged peer is applied like any other is added: nothing is known of when it was staged. -/
inductive Gives (peers : List ServerPeer) (armed : ArmedStep → Prop) :
    Call → Answer → List ServerPeer → Prop
  | arm (step : ArmedStep) : Gives peers armed (.arm step) .done peers
  | present (name : String) (h : name ∈ peers.map ServerPeer.name) :
      Gives peers armed (.has name) (.found true) peers
  | absent (name : String) (h : name ∉ peers.map ServerPeer.name) :
      Gives peers armed (.has name) (.found false) peers
  | staged (peer : ServerPeer) (h : peer.name ∉ peers.map ServerPeer.name) :
      Gives peers armed (.stage peer) (.staged ⟨peer⟩) peers
  | stageTaken (peer : ServerPeer) (h : peer.name ∈ peers.map ServerPeer.name) :
      Gives peers armed (.stage peer) (.failed (.peerExists peer.name)) peers
  | applied (peer : ServerPeer) (hunarmed : ¬armed .apply)
      (h : peer.name ∉ peers.map ServerPeer.name) :
      Gives peers armed (.apply ⟨peer⟩) .done (peers ++ [peer])
  | applyTaken (peer : ServerPeer) (hunarmed : ¬armed .apply)
      (h : peer.name ∈ peers.map ServerPeer.name) :
      Gives peers armed (.apply ⟨peer⟩) (.failed (.peerExists peer.name)) peers
  | applyArmed (staged : StagedPeer) (harmed : armed .apply) :
      Gives peers armed (.apply staged) (.injected .apply) peers
  | added (peer : ServerPeer) (h : peer.name ∉ peers.map ServerPeer.name) :
      Gives peers armed (.add peer) .done (peers ++ [peer])
  | addTaken (peer : ServerPeer) (h : peer.name ∈ peers.map ServerPeer.name) :
      Gives peers armed (.add peer) (.failed (.peerExists peer.name)) peers
  /-- The one peer with the name is taken out from between the others. -/
  | removed (peer : ServerPeer) (front behind : List ServerPeer) (hunarmed : ¬armed .remove)
      (h : peers = front ++ peer :: behind) :
      Gives peers armed (.remove peer.name) .done (front ++ behind)
  | removeMissing (name : String) (hunarmed : ¬armed .remove)
      (h : name ∉ peers.map ServerPeer.name) :
      Gives peers armed (.remove name) (.failed (.peerNotFound name)) peers
  | removeArmed (name : String) (harmed : armed .remove) :
      Gives peers armed (.remove name) (.injected .remove) peers

variable {c : Controller} {config : Config.Server} {x : Call} {a : Answer} {calls : List Call}
  {peers later : List ServerPeer} {armed : ArmedStep → Prop} {step : ArmedStep}

/-! ## One call -/

/-- The relation has something to say about every call, whatever the peers are and whatever is
armed. -/
theorem exists_gives (peers : List ServerPeer) (armed : ArmedStep → Prop) (x : Call) :
    ∃ a later, Gives peers armed x a later := by
  -- two things are asked of each call: is its step armed, and is the name there
  cases x with
  | arm step => exact ⟨_, _, .arm step⟩
  | has name =>
    by_cases h : name ∈ peers.map ServerPeer.name
    · exact ⟨_, _, .present name h⟩
    · exact ⟨_, _, .absent name h⟩
  | stage peer =>
    by_cases h : peer.name ∈ peers.map ServerPeer.name
    · exact ⟨_, _, .stageTaken peer h⟩
    · exact ⟨_, _, .staged peer h⟩
  | apply staged =>
    by_cases harmed : armed .apply
    · exact ⟨_, _, .applyArmed staged harmed⟩
    · by_cases h : staged.peer.name ∈ peers.map ServerPeer.name
      · exact ⟨_, _, .applyTaken staged.peer harmed h⟩
      · exact ⟨_, _, .applied staged.peer harmed h⟩
  | add peer =>
    by_cases h : peer.name ∈ peers.map ServerPeer.name
    · exact ⟨_, _, .addTaken peer h⟩
    · exact ⟨_, _, .added peer h⟩
  | remove name =>
    by_cases harmed : armed .remove
    · exact ⟨_, _, .removeArmed name harmed⟩
    · by_cases h : name ∈ peers.map ServerPeer.name
      · obtain ⟨peer, hpeer, rfl⟩ := List.mem_map.1 h
        obtain ⟨front, behind, hsplit⟩ := List.append_of_mem hpeer
        exact ⟨_, _, .removed peer front behind harmed hsplit⟩
      · exact ⟨_, _, .removeMissing name harmed h⟩

/-- Different names are different afterwards, as only a new name is added. -/
theorem Gives.nodup_names (h : Gives peers armed x a later)
    (hnodup : (peers.map ServerPeer.name).Nodup) : (later.map ServerPeer.name).Nodup := by
  cases h with
  | applied peer _ hnew => exact Config.Server.nodup_names_concat hnodup hnew
  | added peer hnew => exact Config.Server.nodup_names_concat hnodup hnew
  | removed peer front behind _ hsplit =>
    subst hsplit
    exact (((List.sublist_cons_self peer behind).append_left front).map _).nodup hnodup
  -- every other call leaves the peers as they are
  | _ => exact hnodup

/-- A call fails by an arm if and only if it is the step that is armed. -/
theorem Gives.eq_injected_iff (h : Gives peers armed x a later) :
    a = .injected step ↔ x.step? = some step ∧ armed step := by
  have hfires : ∀ {other : ArmedStep}, armed other →
      (Answer.injected other = .injected step ↔ some other = some step ∧ armed step) := by
    intro other harmed
    have hinj : Answer.injected other = .injected step ↔ other = step := by
      cases other <;> cases step <;> decide
    rw [hinj, Option.some_inj]
    exact ⟨fun heq => ⟨heq, heq ▸ harmed⟩, And.left⟩
  have hrests : ∀ {other : ArmedStep}, ¬armed other → ¬(some other = some step ∧ armed step) := by
    rintro other hunarmed ⟨heq, harmed⟩
    exact hunarmed (Option.some_inj.1 heq ▸ harmed)
  cases h with
  | applyArmed staged harmed => exact hfires harmed
  | removeArmed name harmed => exact hfires harmed
  -- a step that is not armed may fail all the same, but for another reason
  | applied peer hunarmed _ => exact iff_of_false nofun (hrests hunarmed)
  | applyTaken peer hunarmed _ => exact iff_of_false nofun (hrests hunarmed)
  | removed peer _ _ hunarmed _ => exact iff_of_false nofun (hrests hunarmed)
  | removeMissing name hunarmed _ => exact iff_of_false nofun (hrests hunarmed)
  | _ => exact iff_of_false nofun nofun

/-- The relation holds of nothing but what a call gives: the answer and the peers are those of the
controller. -/
theorem call_of_gives (hconfig : c.config = some config)
    (hnodup : (config.peers.map ServerPeer.name).Nodup)
    (h : Gives config.peers (· ∈ c.armed) x a later) :
    (c.call x).1 = a ∧ (c.call x).2.config = some { config with peers := later } := by
  have hpresent : ∀ {name}, name ∈ config.peers.map ServerPeer.name →
      (config.find? name).isSome = true := Config.Server.isSome_find?_iff.2
  have habsent : ∀ {name}, name ∉ config.peers.map ServerPeer.name →
      config.find? name = none := Config.Server.find?_eq_none_iff.2
  -- one rule after the other: whether the name is found, and whether the step is armed, decides
  -- what the call is
  cases h with
  | arm step => exact ⟨rfl, hconfig⟩
  | present name h =>
    rw [call, has_eq hconfig, hpresent h]
    exact ⟨rfl, hconfig⟩
  | absent name h =>
    rw [call, has_eq hconfig, habsent h]
    exact ⟨rfl, hconfig⟩
  | staged peer h =>
    rw [call, stage_eq hconfig (habsent h)]
    exact ⟨rfl, hconfig⟩
  | stageTaken peer h =>
    rw [call, stage_eq_error hconfig (hpresent h)]
    exact ⟨rfl, hconfig⟩
  | applied peer hunarmed h =>
    rw [call, apply_eq hconfig (habsent h), if_neg hunarmed]
    exact ⟨rfl, rfl⟩
  | applyTaken peer hunarmed h =>
    rw [call, apply_eq_ite, if_neg hunarmed, add_eq_error hconfig (hpresent h)]
    exact ⟨rfl, hconfig⟩
  | applyArmed staged harmed =>
    rw [call, apply_eq_ite, if_pos harmed]
    exact ⟨rfl, hconfig⟩
  | added peer h =>
    rw [call, add_eq hconfig (habsent h)]
    exact ⟨rfl, rfl⟩
  | addTaken peer h =>
    rw [call, add_eq_error hconfig (hpresent h)]
    exact ⟨rfl, hconfig⟩
  | removed peer front behind hunarmed hsplit =>
    have hname : peer.name ∈ config.peers.map ServerPeer.name :=
      List.mem_map_of_mem (hsplit ▸ List.mem_append_right front List.mem_cons_self)
    rw [call, remove_eq hconfig (hpresent hname), if_neg hunarmed, hsplit,
      eraseP_of_split (hsplit ▸ hnodup)]
    exact ⟨rfl, rfl⟩
  | removeMissing name hunarmed h =>
    rw [call, remove_eq_error hconfig (habsent h), if_neg hunarmed]
    exact ⟨rfl, hconfig⟩
  | removeArmed name harmed =>
    rw [call, remove_of_armed harmed]
    exact ⟨rfl, hconfig⟩

/-- The relation is the call: it holds of an answer and of peers exactly if the call answers so and
leaves these peers. -/
theorem gives_iff (hconfig : c.config = some config)
    (hnodup : (config.peers.map ServerPeer.name).Nodup) :
    Gives config.peers (· ∈ c.armed) x a later ↔
      (c.call x).1 = a ∧ (c.call x).2.config = some { config with peers := later } := by
  refine ⟨call_of_gives hconfig hnodup, ?_⟩
  rintro ⟨rfl, hlater⟩
  obtain ⟨a, peers, h⟩ := exists_gives config.peers (· ∈ c.armed) x
  obtain ⟨rfl, hpeers⟩ := call_of_gives hconfig hnodup h
  obtain rfl : peers = later := by
    rw [hlater, Option.some_inj] at hpeers
    exact (congrArg Config.Server.peers hpeers).symm
  exact h

/-! ## Arms -/

/-- A step is armed after a call that arms it, not after one that is that step, and otherwise as
before. -/
theorem mem_armed_call :
    step ∈ (c.call x).2.armed ↔ if x.concerns step then x = .arm step else step ∈ c.armed := by
  cases x with
  | arm other =>
    rw [call, arm, List.mem_cons, List.mem_filter]
    by_cases h : other = step
    · subst h
      simp [Call.concerns]
    · simp [Call.concerns, Call.step?, h, Ne.symm h]
  | apply staged =>
    rw [show (c.call (.apply staged)).2.armed = _ from c.armed_apply staged]
    cases step <;> simp [Call.concerns, Call.step?]
  | add peer =>
    rw [show (c.call (.add peer)).2.armed = _ from c.armed_add peer]
    simp [Call.concerns, Call.step?]
  | remove name =>
    rw [show (c.call (.remove name)).2.armed = _ from c.armed_remove name]
    cases step <;> simp [Call.concerns, Call.step?]
  | has name => simp [call, Call.concerns, Call.step?]
  | stage peer => simp [call, Call.concerns, Call.step?]

/-- A call that does not arm a step leaves it armed if it was, unless it is that step. -/
theorem mem_armed_call_of_ne (hx : x ≠ .arm step) :
    step ∈ (c.call x).2.armed ↔ x.step? ≠ some step ∧ step ∈ c.armed := by
  have hconcerns : x.concerns step = decide (x.step? = some step) := by
    rw [Call.concerns, decide_eq_false hx, Bool.false_or]
  rw [mem_armed_call, hconcerns]
  by_cases hstep : x.step? = some step
  · simp [hstep, hx]
  · simp [hstep]

/-- One more call is made last, at the controller that the others have left. -/
theorem afterAll_concat (c : Controller) (calls : List Call) (x : Call) :
    c.afterAll (calls ++ [x]) = ((c.afterAll calls).call x).2 := List.foldl_concat ..

/-- What is armed after some calls can be read off the calls: `armedBy` says it of those armed
before. -/
theorem mem_armed_afterAll (c : Controller) (calls : List Call) (step : ArmedStep) :
    step ∈ (c.afterAll calls).armed ↔ armedBy (· ∈ c.armed) calls step := by
  induction calls using List.reverseRecOn with
  | nil => rfl
  | append_singleton calls x ih =>
    rw [afterAll_concat, mem_armed_call, armedBy, findRev?_concat]
    split
    · rfl
    · exact ih

/-- As long as it is not armed again, a step fails once if it is armed and there is a call of its
kind, and never otherwise. The induction is on the calls. -/
theorem count_injected (hconfig : c.config = some config)
    (hnodup : (config.peers.map ServerPeer.name).Nodup) (hmore : .arm step ∉ calls) :
    (c.answers calls).count (.injected step) =
      if step ∈ c.armed then min 1 (calls.countP (·.step? = some step)) else 0 := by
  induction calls generalizing c config with
  | nil => simp [answers]
  | cons x calls ih =>
    rw [List.mem_cons, not_or] at hmore
    obtain ⟨hx, hmore⟩ := hmore
    obtain ⟨a, later, h⟩ := exists_gives config.peers (· ∈ c.armed) x
    obtain ⟨ha, hlater⟩ := call_of_gives hconfig hnodup h
    have hrest := ih hlater (h.nodup_names hnodup) hmore
    have hafter : step ∈ (c.call x).2.armed ↔ x.step? ≠ some step ∧ step ∈ c.armed :=
      mem_armed_call_of_ne (Ne.symm hx)
    have hinjected : a = .injected step ↔ x.step? = some step ∧ step ∈ c.armed := h.eq_injected_iff
    rw [answers, List.count_cons, hrest, ha, List.countP_cons]
    by_cases hstep : x.step? = some step
    · -- the step fails now if it is armed, and in no case later
      by_cases harmed : step ∈ c.armed <;> simp [hafter, hinjected, hstep, harmed]
    · -- the step is armed later if it is now
      simp [hafter, hinjected, hstep]

/-! ## Any calls -/

/-- Calls change nothing but the peers of the configuration, and leave their names different. -/
theorem config_afterAll (hconfig : c.config = some config)
    (hnodup : (config.peers.map ServerPeer.name).Nodup) (calls : List Call) :
    ∃ peers, (c.afterAll calls).config = some { config with peers := peers } ∧
      (peers.map ServerPeer.name).Nodup := by
  induction calls using List.reverseRecOn with
  | nil => exact ⟨config.peers, hconfig, hnodup⟩
  | append_singleton calls x ih =>
    obtain ⟨peers, hpeers, hnames⟩ := ih
    obtain ⟨a, later, h⟩ := exists_gives peers (· ∈ (c.afterAll calls).armed) x
    rw [afterAll_concat]
    exact ⟨later, (call_of_gives hpeers hnames h).2, h.nodup_names hnames⟩

/-- After any calls, whose peers were staged at any time, the names of the peers are different and
every call gives what the relation says: what it does depends on whether the name is there and on
whether its step is armed, and nothing else. An arm makes exactly one of the calls of its kind that
follow it fail. -/
theorem calls_exact (hconfig : c.config = some config)
    (hnodup : (config.peers.map ServerPeer.name).Nodup) (calls : List Call) :
    ∃ peers, (c.afterAll calls).config = some { config with peers := peers } ∧
      (peers.map ServerPeer.name).Nodup ∧
      (∀ x a later, Gives peers (armedBy (· ∈ c.armed) calls) x a later ↔
        ((c.afterAll calls).call x).1 = a ∧
          ((c.afterAll calls).call x).2.config = some { config with peers := later }) ∧
      ∀ step more, .arm step ∉ more →
        ((c.afterAll (calls ++ [.arm step])).answers more).count (.injected step) =
          min 1 (more.countP (·.step? = some step)) := by
  obtain ⟨peers, hpeers, hnames⟩ := config_afterAll hconfig hnodup calls
  have harmed : (· ∈ (c.afterAll calls).armed) = armedBy (· ∈ c.armed) calls :=
    funext fun step => propext (mem_armed_afterAll c calls step)
  refine ⟨peers, hpeers, hnames, fun x a later => harmed ▸ gives_iff hpeers hnames, ?_⟩
  intro step more hmore
  have harm : step ∈ ((c.afterAll calls).arm step).armed := List.mem_cons_self
  have hloaded : ((c.afterAll calls).arm step).config = some { config with peers := peers } :=
    hpeers
  rw [afterAll_concat]
  exact (count_injected hloaded hnames hmore).trans (if_pos harm)

/-- A peer that is known by its name and its key, and has no nets. -/
def stalePeer (name : String) (n : Nat) : ServerPeer := ⟨name, ⟨.ofNat n⟩, []⟩

/-- A controller with one peer, `alice`, and nothing armed. -/
def stale : Controller where
  configPath := "wg0.conf"
  interface := "wg0"
  config := some ⟨⟨none, Net.host (.ofNat .v4 0x0A090801), none, ⟨.ofNat 1⟩, [], []⟩,
    [stalePeer "alice" 2]⟩

/-- Two peers of one name are staged, and the second is applied twice because the first time an arm
fires. -/
def staleCalls : List Call :=
  [.stage (stalePeer "carol" 3), .stage (stalePeer "carol" 4), .arm .apply,
    .apply ⟨stalePeer "carol" 4⟩, .apply ⟨stalePeer "carol" 4⟩]

/-- Of two staged peers of one name, the one that is applied later is refused, whichever was staged
first; removing another peer leaves the one that was applied. -/
theorem calls_exact_stale :
    stale.answers staleCalls =
        [.staged ⟨stalePeer "carol" 3⟩, .staged ⟨stalePeer "carol" 4⟩, .done, .injected .apply,
          .done] ∧
      ((stale.afterAll staleCalls).call (.apply ⟨stalePeer "carol" 3⟩)).1 =
        .failed (.peerExists "carol") ∧
      ((stale.afterAll staleCalls).call (.remove "alice")).2.peers = [stalePeer "carol" 4] := by
  obtain ⟨peers, hconfig, -, hgives, -⟩ :=
    calls_exact (c := stale) rfl (by decide) staleCalls
  obtain rfl : [stalePeer "alice" 2, stalePeer "carol" 4] = peers :=
    congrArg Config.Server.peers (Option.some.inj hconfig)
  have hunarmed : ∀ step, ¬armedBy (· ∈ stale.armed) staleCalls step := fun step harmed =>
    List.not_mem_nil ((mem_armed_afterAll stale staleCalls step).2 harmed)
  refine ⟨by decide +kernel, ?_, ?_⟩
  · exact ((hgives _ _ _).1 (.applyTaken _ (hunarmed .apply) (by decide))).1
  · have hremoved := ((hgives _ _ _).1
      (.removed (stalePeer "alice" 2) [] [stalePeer "carol" 4] (hunarmed .remove) rfl)).2
    exact peers_eq hremoved

end WireKeeper.Controller
