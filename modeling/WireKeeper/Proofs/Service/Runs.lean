import WireKeeper.Proofs.Service.Transitions

/-! # Runs of a service

A run is a sequence of **events**: calls of the service, and restarts on the store and the
controller that it left. A call gives a service whatever comes of it; a restart may fail, and then
there is none.

A list that 32 bits cannot count makes a record of more bytes than the database takes for one value,
so that a call with it fails in the database. `Countable` leaves such lists out.

* `Call`, `after`, `afterAll`: calls;
* `Event`, `step`, `run`: events, and what a run of them leads to;
* `run_invariant`: what every event preserves, every run does. -/

namespace WireKeeper

/-- The lists of the settings can be counted in 32 bits, as those of every client must. -/
structure ServiceSettings.Countable (settings : ServiceSettings) : Prop where
  dns : settings.dns.length < twoPow 32
  allowedIPs : settings.allowedIPs.length < twoPow 32

/-- The lists that a client is added with can be counted in 32 bits. -/
structure AddOptions.Countable (options : AddOptions) : Prop where
  dns : ∀ dns, options.dns = some dns → dns.length < twoPow 32
  allowedIPs : options.allowedIPs.length < twoPow 32

namespace Service

/-! ## Calls -/

/-- A call of the service, or an arm that makes the next step at the controller fail. -/
inductive Call where
  | add (fresh : PrivateKey) (name : String) (options : AddOptions)
  | remove (name : String)
  | get (name : String)
  | infos
  | arm (step : ArmedStep)

/-- The service after a call. Reading a client or all of them gives no other service. -/
def after (s : Service) : Call → Service
  | .add fresh name options => (s.add fresh name options).2
  | .remove name => (s.remove name).2
  | .get _ => s
  | .infos => s
  | .arm step => { s with controller := s.controller.arm step }

/-- Every call keeps the settings and the key, and all else but the cursor that `Keeps` names. -/
theorem after_keeps (s : Service) (c : Call) : s.Keeps { s.after c with cursor := s.cursor } := by
  cases c with
  | add fresh name options => exact s.add_keeps fresh name options
  | remove name =>
    have hkeeps := s.remove_keeps name
    exact ⟨hkeeps.settings, hkeeps.publicKey, rfl⟩
  | get name => exact ⟨rfl, rfl, rfl⟩
  | infos => exact ⟨rfl, rfl, rfl⟩
  | arm step => exact ⟨rfl, rfl, rfl⟩

/-- The service after some calls, one after the other. -/
def afterAll (s : Service) (calls : List Call) : Service := calls.foldl after s

/-! ## Events -/

/-- What can happen to a service: a call, or a restart. -/
inductive Event where
  | call (c : Call)
  /-- The service is started anew with the same settings. -/
  | restart (fresh : PrivateKey)

/-- The service after an event, unless a restart fails. -/
def step (s : Service) : Event → Except ServiceError Service
  | .call c => .ok (s.after c)
  | .restart fresh => start s.settings fresh s.store s.controller

/-- The service after some events, up to the first restart that fails. -/
def run (s : Service) : List Event → Except ServiceError Service
  | [] => .ok s
  | e :: events =>
    match s.step e with
    | .ok s => s.run events
    | .error e => .error e

/-- The lists of an event can be counted; only additions have any. -/
def Event.Countable : Event → Prop
  | .call (.add _ _ options) => options.Countable
  | _ => True

/-- A run is one part of it after the other, if the first part does not fail. -/
theorem run_append (s : Service) (events events' : List Event) :
    s.run (events ++ events') =
      match s.run events with
      | .ok s => s.run events'
      | .error e => .error e := by
  induction events generalizing s with
  | nil => rfl
  | cons e es ih =>
    rw [List.cons_append, run, run]
    cases s.step e with
    | error e => rfl
    | ok s' => exact ih s'

/-- A run with one more event: the event is met by the service that the others have led to. -/
theorem run_concat {s s' : Service} {events : List Event} (h : s.run events = .ok s') (e : Event) :
    s.run (events ++ [e]) = s'.step e := by
  rw [run_append, h]
  simp only [run]
  cases s'.step e <;> rfl

/-- What holds of a service and is preserved by every event of a kind, holds after every run of such
events, which does not fail. The invariants of runs with restarts are proved with it. -/
theorem run_invariant {P : Service → Prop} {K : Event → Prop}
    (hstep : ∀ s e, P s → K e → ∃ s', s.step e = .ok s' ∧ P s') {s : Service} (hs : P s)
    {events : List Event} (hevents : ∀ e ∈ events, K e) :
    ∃ s', s.run events = .ok s' ∧ P s' := by
  induction events generalizing s with
  | nil => exact ⟨s, rfl, hs⟩
  | cons e es ih =>
    obtain ⟨s₁, h₁, hs₁⟩ := hstep s e hs (hevents e List.mem_cons_self)
    rw [run, h₁]
    exact ih hs₁ fun e' he' => hevents e' (List.mem_cons_of_mem e he')

/-- A server at `10.9.8.1/24`, for runs that are followed step by step. -/
def sampleSettings : ServiceSettings :=
  ⟨"vpn.example", ⟨.ofNat .v4 0x0A090801, 24, by decide⟩, 51820, "eth0",
    [.ofNat .v4 0x0A090801], [], some 25⟩

/-- A service with the sample settings over an empty store. -/
def startSample : Except ServiceError Service :=
  start sampleSettings ⟨.ofNat 1⟩ {} ⟨"wg0.conf", "wg0", none, []⟩

/-- A new client has the lists of the options or of the settings, so they can be counted if these
can. -/
theorem countable_newPeer {s : Service} (hsettings : s.settings.Countable) {options : AddOptions}
    (hoptions : options.Countable) (fresh : PrivateKey) (name : String) (a : Net) :
    (s.newPeer fresh name a options).Countable := by
  constructor
  · show (options.dns.getD s.settings.dns).length < twoPow 32
    cases h : options.dns with
    | none => exact hsettings.dns
    | some dns => exact hoptions.dns dns h
  · show (if options.allowedIPs.isEmpty then s.settings.allowedIPs
      else options.allowedIPs).length < twoPow 32
    split
    · exact hsettings.allowedIPs
    · exact hoptions.allowedIPs

end Service

end WireKeeper
