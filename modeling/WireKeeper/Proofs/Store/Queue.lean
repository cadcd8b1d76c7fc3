import Mathlib.Data.Nat.ModEq
import WireKeeper.Store.Queue

/-! # What goes into the batch queue comes out

Calls are submitted and timers fire in any order. Timers have the numbers of their batches as the
queue counts them, in sixty-four bits; here they are also told apart by how many were started before
them, and what came in and went out is written down beside the queue.

* `BatchQueue.fire_cases`: what a timer can do;
* `BatchQueue.Dispatch`: a queue with its timers and its past, `Dispatch.step` and `Dispatch.run`;
* `Dispatch.step_submit_first`, `step_submit_join`, `step_submit_fill`: what a submission can do;
* `Dispatch.Invariant`: what every step preserves;
* `Dispatch.accounted_run`: every call leaves in one group, once, and none stays behind;
* `BatchQueue.groups_partition`: the groups of calls that are submitted at once. -/

namespace WireKeeper

namespace BatchQueue

variable {α : Type} {q : BatchQueue α} {call : α} {timer : UInt64}

/-! ## Batches -/

/-- The calls that wait, in the order of their submission. -/
def calls (q : BatchQueue α) : List α := (q.pending.map Prod.snd).getD []

/-- No call waits where no batch does. -/
theorem calls_of_pending_none (h : q.pending = none) : q.calls = [] := by rw [calls, h]; rfl

/-- The calls of the batch that waits are those that wait. -/
theorem calls_of_pending_some {id : UInt64} {batch : List α} (h : q.pending = some (id, batch)) :
    q.calls = batch := by rw [calls, h]; rfl

/-- A timer takes the batch along that has its number, and does nothing else. If no batch has it,
the queue stays as it is. -/
theorem fire_cases (q : BatchQueue α) (timer : UInt64) :
    (∃ calls, q.pending = some (timer, calls) ∧
      q.fire timer = ({ q with pending := none }, some calls)) ∨
    ((∀ calls, q.pending ≠ some (timer, calls)) ∧ q.fire timer = (q, none)) := by
  obtain ⟨nextId, pending⟩ := q
  cases pending with
  | none => exact .inr ⟨nofun, rfl⟩
  | some batch =>
    obtain ⟨id, calls⟩ := batch
    by_cases hid : id = timer
    · subst hid
      exact .inl ⟨calls, rfl, by simp only [fire, if_pos]⟩
    · refine .inr ⟨fun calls' h => hid ?_, by simp only [fire, if_neg hid]⟩
      exact congrArg Prod.fst (Option.some.inj h)

/-! ## A queue and its past -/

/-- A timer that was started and has not fired yet. -/
structure Timer where
  /-- How many timers were started before it. -/
  number : Nat
  /-- The number of its batch as the queue counts. -/
  id : UInt64
  deriving DecidableEq

/-- What can happen to a queue: a call is submitted, or a timer fires. -/
inductive Event (α : Type) where
  | submit (call : α)
  /-- A timer fires; nothing happens if it has fired before or was never started. -/
  | fire (number : Nat)

/-- A queue, its timers, and what went in and came out so far. -/
structure Dispatch (α : Type) where
  queue : BatchQueue α := {}
  /-- How many timers were started. -/
  started : Nat := 0
  timers : List Timer := []
  submitted : List α := []
  groups : List (List α) := []

namespace Dispatch

/-- Let something happen. What is submitted and what leaves is written down beside the queue. -/
def step (d : Dispatch α) : Event α → Dispatch α
  | .submit call =>
    let s := d.queue.submit call
    { queue := s.queue
      started := d.started + s.timer.toList.length
      timers := d.timers ++ s.timer.toList.map (Timer.mk d.started)
      submitted := d.submitted ++ [call]
      groups := d.groups ++ s.group.toList }
  | .fire number =>
    match d.timers.find? fun t => t.number = number with
    | none => d
    | some t =>
      let (queue, group) := d.queue.fire t.id
      { d with
        queue := queue
        timers := d.timers.filter fun t => t.number ≠ number
        groups := d.groups ++ group.toList }

/-- Let one thing happen after the other. -/
def run (d : Dispatch α) (events : List (Event α)) : Dispatch α := events.foldl step d

variable {d : Dispatch α} {id : UInt64} {batch : List α}

/-- A call that finds no batch is one by itself, and starts its timer. -/
theorem step_submit_first (h : d.queue.pending = none) (call : α) :
    d.step (.submit call) = {
      queue := ⟨d.queue.nextId + 1, some (d.queue.nextId, [call])⟩
      started := d.started + 1
      timers := d.timers ++ [⟨d.started, d.queue.nextId⟩]
      submitted := d.submitted ++ [call]
      groups := d.groups } := by
  have hsubmit : d.queue.submit call =
      ⟨⟨d.queue.nextId + 1, some (d.queue.nextId, [call])⟩, some d.queue.nextId, none⟩ := by
    rw [submit, h]
    rfl
  simp [step, hsubmit]

/-- A call joins the batch that waits if it does not fill it, and starts no timer. -/
theorem step_submit_join (h : d.queue.pending = some (id, batch))
    (hlength : batch.length + 1 < maxSize) (call : α) :
    d.step (.submit call) = { d with
      queue := { d.queue with pending := some (id, batch ++ [call]) }
      submitted := d.submitted ++ [call] } := by
  have hroom : ¬ maxSize ≤ (batch ++ [call]).length := by
    rw [List.length_append]
    exact Nat.not_le_of_lt hlength
  have hsubmit : d.queue.submit call =
      ⟨{ d.queue with pending := some (id, batch ++ [call]) }, none, none⟩ := by
    simp only [submit, h, flushFull, if_neg hroom]
  simp [step, hsubmit]

/-- A call that fills the batch takes it along; its timer stays, and will find another batch or
none. -/
theorem step_submit_fill (h : d.queue.pending = some (id, batch))
    (hlength : maxSize ≤ batch.length + 1) (call : α) :
    d.step (.submit call) = { d with
      queue := { d.queue with pending := none }
      submitted := d.submitted ++ [call]
      groups := d.groups ++ [batch ++ [call]] } := by
  have hfull : maxSize ≤ (batch ++ [call]).length := by
    rw [List.length_append]
    exact hlength
  have hsubmit : d.queue.submit call =
      ⟨{ d.queue with pending := none }, none, some (batch ++ [call])⟩ := by
    simp only [submit, h, flushFull, if_pos hfull]
  simp [step, hsubmit]

/-- A timer that fires is gone, and the others stay. -/
theorem timers_step_fire (d : Dispatch α) (number : Nat) :
    (d.step (.fire number)).timers = d.timers.filter fun t => t.number ≠ number := by
  rw [step]
  cases hfind : d.timers.find? fun t => t.number = number with
  | none =>
    refine (List.filter_eq_self.2 fun t ht => ?_).symm
    simpa using List.find?_eq_none.1 hfind t ht
  | some t => rfl

/-- A timer submits nothing, whether it was started or not. -/
theorem submitted_step_fire (d : Dispatch α) (number : Nat) :
    (d.step (.fire number)).submitted = d.submitted := by
  rw [step]
  cases d.timers.find? fun t => t.number = number <;> rfl

/-! ## What every step preserves -/

/-- How a queue, its timers and its past belong together. Every step preserves this. -/
structure Invariant (d : Dispatch α) : Prop where
  /-- What came in went out in its order, or waits. -/
  flow : d.groups.flatten ++ d.queue.calls = d.submitted
  /-- Groups are neither empty nor too long. -/
  sizes : ∀ g ∈ d.groups, 1 ≤ g.length ∧ g.length ≤ maxSize
  /-- The batch that waits is neither empty nor full, and the timer that was started last is its own
  and has not fired. -/
  waiting : ∀ id calls, d.queue.pending = some (id, calls) →
    1 ≤ calls.length ∧ calls.length < maxSize ∧
      ∃ t ∈ d.timers, t.number + 1 = d.started ∧ t.id = id
  /-- Timers have the numbers of their batches, in sixty-four bits. -/
  numbered : ∀ t ∈ d.timers, t.number < d.started ∧ t.id = UInt64.ofNat t.number
  /-- The queue counts batches as timers are counted. -/
  counted : d.queue.nextId = UInt64.ofNat d.started

/-- At the beginning there is nothing, and the invariant holds. -/
theorem Invariant.empty : ({} : Dispatch α).Invariant :=
  ⟨rfl, nofun, nofun, nofun, rfl⟩

/-- A submission preserves the invariant: the call is a batch by itself, or joins the one that
waits, or fills it. -/
theorem Invariant.submit (h : d.Invariant) (call : α) : (d.step (.submit call)).Invariant := by
  have hflow := h.flow
  cases hpending : d.queue.pending with
  | none =>
    rw [calls_of_pending_none hpending, List.append_nil] at hflow
    rw [step_submit_first hpending]
    exact {
      flow := congrArg (· ++ [call]) hflow
      sizes := h.sizes
      waiting := by
        rintro _ _ ⟨⟩
        exact ⟨Nat.le_refl 1, (by decide : 1 < maxSize), _,
          List.mem_append_right _ List.mem_cons_self, rfl, rfl⟩
      numbered := by
        intro t ht
        rcases List.mem_append.1 ht with ht | ht
        · exact ⟨Nat.lt_succ_of_lt (h.numbered t ht).1, (h.numbered t ht).2⟩
        · rw [List.mem_singleton.1 ht]
          exact ⟨Nat.lt_succ_self _, h.counted⟩
      counted := by
        show d.queue.nextId + 1 = UInt64.ofNat (d.started + 1)
        rw [h.counted, UInt64.ofNat_add]
        rfl }
  | some waiting =>
    obtain ⟨id, batch⟩ := waiting
    obtain ⟨-, hless, htimer⟩ := h.waiting id batch hpending
    rw [calls_of_pending_some hpending] at hflow
    -- the call either completes the batch or leaves room for another
    by_cases hfull : maxSize ≤ batch.length + 1
    · rw [step_submit_fill hpending hfull]
      exact {
        flow := by
          rw [← hflow, List.flatten_append, List.append_assoc, List.append_assoc]
          exact congrArg _ (List.append_nil _ ▸ List.append_nil _)
        sizes := by
          intro g hg
          rcases List.mem_append.1 hg with hg | hg
          · exact h.sizes g hg
          · rw [List.mem_singleton.1 hg, List.length_append]
            exact ⟨Nat.le_add_left 1 _, hless⟩
        waiting := nofun
        numbered := h.numbered
        counted := h.counted }
    · rw [step_submit_join hpending (Nat.lt_of_not_le hfull)]
      exact {
        flow := by
          rw [← hflow, List.append_assoc]
          rfl
        sizes := h.sizes
        waiting := by
          rintro _ _ ⟨⟩
          rw [List.length_append]
          exact ⟨Nat.le_add_left 1 _, Nat.lt_of_not_le hfull, htimer⟩
        numbered := h.numbered
        counted := h.counted }

/-- A timer preserves the invariant: it takes its batch along, or comes too late and changes only
the timers. -/
theorem Invariant.fire (h : d.Invariant) (number : Nat) : (d.step (.fire number)).Invariant := by
  cases hfind : d.timers.find? fun t => t.number = number with
  | none =>
    have hstep : d.step (.fire number) = d := by rw [step, hfind]
    rw [hstep]
    exact h
  | some t =>
    have ht : t ∈ d.timers := List.mem_of_find?_eq_some hfind
    have htnumber : t.number = number := by simpa using List.find?_some hfind
    have hflow := h.flow
    have hnumbered : ∀ u ∈ d.timers.filter (fun u => decide (u.number ≠ number)),
        u.number < d.started ∧ u.id = UInt64.ofNat u.number :=
      fun u hu => h.numbered u (List.mem_filter.1 hu).1
    obtain ⟨calls, hpending, hfire⟩ | ⟨hother, hfire⟩ := fire_cases d.queue t.id
    · -- its batch leaves the queue
      have hstep : d.step (.fire number) = { d with
          queue := { d.queue with pending := none }
          timers := d.timers.filter fun u => u.number ≠ number
          groups := d.groups ++ [calls] } := by
        simp [step, hfind, hfire]
      obtain ⟨hone, hless, -⟩ := h.waiting t.id calls hpending
      -- the calls that waited are now the last group
      rw [calls_of_pending_some hpending] at hflow
      rw [hstep]
      exact {
        flow := by
          rw [← hflow, List.flatten_append]
          exact (List.append_nil _).trans (congrArg _ (List.append_nil _))
        sizes := by
          intro g hg
          rcases List.mem_append.1 hg with hg | hg
          · exact h.sizes g hg
          · rw [List.mem_singleton.1 hg]
            exact ⟨hone, Nat.le_of_lt hless⟩
        waiting := nofun
        numbered := hnumbered
        counted := h.counted }
    · -- its batch is not there, so the timer of the batch that waits is another one
      have hstep : d.step (.fire number) = { d with
          timers := d.timers.filter fun u => u.number ≠ number } := by
        simp [step, hfind, hfire]
      rw [hstep]
      exact {
        flow := hflow
        sizes := h.sizes
        waiting := by
          intro id calls hpending
          obtain ⟨hone, hless, u, hu, hlast, hid⟩ := h.waiting id calls hpending
          have hne : u.number ≠ number := by
            intro hunumber
            have hids : u.id = t.id := by
              rw [(h.numbered u hu).2, (h.numbered t ht).2, hunumber, htnumber]
            exact hother calls (by rw [hpending, ← hid, hids])
          exact ⟨hone, hless, u, List.mem_filter.2 ⟨hu, decide_eq_true hne⟩, hlast, hid⟩
        numbered := hnumbered
        counted := h.counted }

/-- Every run preserves the invariant, by induction over its events. -/
theorem Invariant.run (h : d.Invariant) (events : List (Event α)) : (d.run events).Invariant := by
  induction events generalizing d with
  | nil => exact h
  | cons event events ih =>
    cases event with
    | submit call => exact ih (h.submit call)
    | fire number => exact ih (h.fire number)

/-! ## Nothing stays behind -/

/-- When timers have fired, the others are left, and nothing was submitted. -/
theorem run_fire (d : Dispatch α) (numbers : List Nat) :
    (d.run (numbers.map .fire)).timers = d.timers.filter (fun t => t.number ∉ numbers) ∧
      (d.run (numbers.map .fire)).submitted = d.submitted := by
  induction numbers generalizing d with
  | nil => exact ⟨(List.filter_eq_self.2 fun _ _ => rfl).symm, rfl⟩
  | cons number numbers ih =>
    obtain ⟨htimers, hsubmitted⟩ := ih (d.step (.fire number))
    refine ⟨htimers.trans ?_, hsubmitted.trans (submitted_step_fire d number)⟩
    rw [timers_step_fire, List.filter_filter]
    refine List.filter_congr fun t _ => ?_
    rw [Bool.eq_iff_iff]
    simp only [List.mem_cons, not_or, Bool.and_eq_true, decide_eq_true_eq, ne_eq]
    exact and_comm

/-- Without timers no call waits, since a batch that waits has one that has not fired. -/
theorem Invariant.pending_eq_none (h : d.Invariant) (htimers : d.timers = []) :
    d.queue.pending = none := by
  cases hpending : d.queue.pending with
  | none => rfl
  | some batch =>
    obtain ⟨-, -, t, ht, -⟩ := h.waiting batch.1 batch.2 hpending
    rw [htimers] at ht
    exact absurd ht List.not_mem_nil

/-- What is known about the calls at any moment. -/
structure Accounted (d : Dispatch α) : Prop where
  /-- Every call that was submitted is in one group, once, or waits, all in the order of their
  submission. -/
  flow : d.groups.flatten ++ d.queue.calls = d.submitted
  /-- Groups are neither empty nor too long. -/
  sizes : ∀ g ∈ d.groups, 1 ≤ g.length ∧ g.length ≤ maxSize
  /-- When a batch waits, the timer that has its number, the one that was started last, has not
  fired. -/
  waiting : ∀ id calls, d.queue.pending = some (id, calls) →
    ∃ t ∈ d.timers, t.number + 1 = d.started ∧ t.id = id
  /-- Once all timers have fired, in whatever order, no call waits, and all are in groups. -/
  drained : ∀ numbers : List Nat, (∀ t ∈ d.timers, t.number ∈ numbers) →
    (d.run (numbers.map .fire)).queue.pending = none ∧
      (d.run (numbers.map .fire)).groups.flatten = d.submitted
  /-- A timer of a batch that has left leaves a newer one that waits as it is: all of them do, until
  the numbers of batches come round to that timer's after `2 ^ 64` of them. -/
  stale : ∀ t ∈ d.timers, t.number + 1 < d.started → d.queue.pending ≠ none →
    (d.queue.fire t.id = (d.queue, none) ↔ ¬ 2 ^ 64 ∣ d.started - 1 - t.number)

/-- Numbers of batches are the same in sixty-four bits if and only if they differ by a multiple of
`2 ^ 64`. -/
theorem ofNat_eq_ofNat_iff {m n : Nat} (h : m ≤ n) :
    UInt64.ofNat n = UInt64.ofNat m ↔ 2 ^ 64 ∣ n - m := by
  rw [← Nat.modEq_iff_dvd' h, UInt64.ofNat_eq_iff_mod_eq_toNat, UInt64.toNat_ofNat']
  exact eq_comm

/-- **Every submitted call leaves the queue in one group, once.** Whatever calls are submitted and
whatever timers fire, in whatever order: at every moment the calls are in groups or wait, in the
order of their submission, and what waits has a timer that is yet to fire. -/
theorem accounted_run (events : List (Event α)) : (run {} events).Accounted := by
  have h : (run {} events : Dispatch α).Invariant := Invariant.empty.run events
  generalize (run {} events : Dispatch α) = d at h
  refine ⟨h.flow, h.sizes, fun id calls hpending => (h.waiting id calls hpending).2.2, ?_, ?_⟩
  · intro numbers hnumbers
    obtain ⟨htimers, hsubmitted⟩ := run_fire d numbers
    have hafter := h.run (numbers.map .fire)
    -- firing starts no timer, so none is left
    have hnone : (d.run (numbers.map .fire)).timers = [] := by
      rw [htimers]
      exact List.filter_eq_nil_iff.2 fun t ht hleft => of_decide_eq_true hleft (hnumbers t ht)
    have hpending := hafter.pending_eq_none hnone
    refine ⟨hpending, ?_⟩
    rw [← hsubmitted, ← hafter.flow, calls_of_pending_none hpending, List.append_nil]
  · intro t ht hold hpending
    obtain ⟨batch, hbatch⟩ := Option.ne_none_iff_exists'.1 hpending
    -- the batch that waits is the one of the timer that was started last
    obtain ⟨-, -, u, hu, hlast, hid⟩ := h.waiting batch.1 batch.2 hbatch
    have hnumber : u.number = d.started - 1 := by omega
    have hids : UInt64.ofNat (d.started - 1) = UInt64.ofNat t.number ↔ batch.1 = t.id := by
      rw [← hid, (h.numbered u hu).2, (h.numbered t ht).2, hnumber]
    rw [← ofNat_eq_ofNat_iff (by omega), hids]
    obtain ⟨calls, hcalls, hfire⟩ | ⟨hother, hfire⟩ := fire_cases d.queue t.id
    · rw [hbatch] at hcalls
      rw [hfire, Option.some.inj hcalls]
      exact iff_of_false (fun h => nomatch congrArg Prod.snd h) (not_not_intro rfl)
    · refine iff_of_true hfire fun hsame => hother batch.2 ?_
      rw [hbatch, ← hsame]

/-- What leaves when calls are submitted at once, and what waits then, are the groups of
the calls. -/
theorem groups_run_submit (d : Dispatch α) (calls : List α) :
    (d.run (calls.map .submit)).groups ++
        ((d.run (calls.map .submit)).queue.pending.map Prod.snd).toList =
      d.groups ++ groupsFrom d.queue calls := by
  induction calls generalizing d with
  | nil => rfl
  | cons call calls ih => exact (ih (d.step (.submit call))).trans (List.append_assoc _ _ _)

/-- What is submitted is written down, and nothing else is. -/
theorem submitted_run_submit (d : Dispatch α) (calls : List α) :
    (d.run (calls.map .submit)).submitted = d.submitted ++ calls := by
  induction calls generalizing d with
  | nil => exact (List.append_nil _).symm
  | cons call calls ih =>
    exact (ih (d.step (.submit call))).trans (List.append_assoc d.submitted [call] calls)

/-- Calls join the batch that waits as long as they do not fill it. None of them starts a timer. -/
theorem run_submit_join {calls : List α} (h : d.queue.pending = some (id, batch))
    (hlength : batch.length + calls.length < maxSize) :
    d.run (calls.map .submit) = { d with
      queue := { d.queue with pending := some (id, batch ++ calls) }
      submitted := d.submitted ++ calls } := by
  induction calls generalizing d batch with
  | nil => rw [List.append_nil, List.append_nil, ← h]; rfl
  | cons call calls ih =>
    rw [List.length_cons] at hlength
    have hjoin := step_submit_join h (by omega) call
    have hpending : (d.step (.submit call)).queue.pending = some (id, batch ++ [call]) := by
      rw [hjoin]
    have hroom : (batch ++ [call]).length + calls.length < maxSize := by
      rw [List.length_append, List.length_singleton]
      omega
    rw [List.map_cons, run, List.foldl_cons]
    refine (ih hpending hroom).trans ?_
    rw [hjoin, List.append_assoc, List.append_assoc]
    rfl

/-- One call more than fits: the full batch leaves and its timer stays, and the call waits for
another one. -/
theorem run_submit_overfull {calls : List α} (h : calls.length + 2 = maxSize)
    (first last next : α) :
    run {} ((first :: calls ++ [last, next]).map .submit) =
      ⟨⟨2, some (1, [next])⟩, 2, [⟨0, 0⟩, ⟨1, 1⟩], first :: calls ++ [last, next],
        [first :: calls ++ [last]]⟩ := by
  have hroom : [first].length + calls.length < maxSize := by rw [List.length_singleton]; omega
  have hfull : maxSize ≤ (first :: calls).length + 1 := by rw [List.length_cons]; omega
  have hfirst : ({} : Dispatch α).step (.submit first) =
      ⟨⟨1, some (0, [first])⟩, 1, [⟨0, 0⟩], [first], []⟩ := step_submit_first (d := {}) rfl first
  have hjoin : run ⟨⟨1, some (0, [first])⟩, 1, [⟨0, 0⟩], [first], []⟩ (calls.map .submit) =
      ⟨⟨1, some (0, first :: calls)⟩, 1, [⟨0, 0⟩], first :: calls, []⟩ :=
    run_submit_join rfl hroom
  have hfill :
      step ⟨⟨1, some (0, first :: calls)⟩, 1, [⟨0, 0⟩], first :: calls, []⟩ (.submit last) =
      ⟨⟨1, none⟩, 1, [⟨0, 0⟩], first :: calls ++ [last], [first :: calls ++ [last]]⟩ :=
    step_submit_fill rfl hfull last
  have hsplit : (run {} ((first :: calls ++ [last, next]).map .submit) : Dispatch α) =
      (((step {} (.submit first)).run (calls.map .submit)).step (.submit last)).step
        (.submit next) := by
    rw [List.map_append, run, List.foldl_append]
    rfl
  rw [hsplit, hfirst, hjoin, hfill, step_submit_first rfl, List.append_assoc]
  rfl

/-- The timer of a full batch comes too late, and leaves the call that waits for the next one. -/
theorem accounted_run_overfull :
    (run {} (('a' :: List.replicate 998 'b' ++ ['c', 'd']).map .submit)).queue.fire 0 =
      (⟨2, some (1, ['d'])⟩, none) := by
  have hlength : (List.replicate 998 'b').length + 2 = maxSize := by rw [List.length_replicate]; rfl
  have hrun := run_submit_overfull hlength 'a' 'c' 'd'
  have haccounted := accounted_run (('a' :: List.replicate 998 'b' ++ ['c', 'd']).map .submit)
  have hstale := haccounted.stale ⟨0, 0⟩
  rw [hrun] at hstale
  rw [hrun]
  exact (hstale List.mem_cons_self (by decide) nofun).2 (by decide)

/-- Three calls, and the timers of their two batches. -/
example : (run {} [.submit 'a', .submit 'b', .fire 0, .submit 'c', .fire 0, .fire 1]).groups =
    [['a', 'b'], ['c']] := by decide

end Dispatch

/-- Calls that are submitted at once are all in groups, in their order, and no group is empty or too
long. -/
theorem groups_partition (calls : List α) :
    (groups calls).flatten = calls ∧ ∀ g ∈ groups calls, 1 ≤ g.length ∧ g.length ≤ maxSize := by
  have h : (Dispatch.run {} (calls.map .submit)).Invariant := Dispatch.Invariant.empty.run _
  have hgroups : _ = groups calls := Dispatch.groups_run_submit {} calls
  have hsubmitted : _ = calls := Dispatch.submitted_run_submit {} calls
  have hflow := h.flow.trans hsubmitted
  rw [← hgroups]
  cases hpending : (Dispatch.run {} (calls.map .submit)).queue.pending with
  | none =>
    rw [calls_of_pending_none hpending, List.append_nil] at hflow
    rw [Option.map_none, Option.toList_none, List.append_nil]
    exact ⟨hflow, h.sizes⟩
  | some waiting =>
    obtain ⟨id, batch⟩ := waiting
    obtain ⟨hone, hless, -⟩ := h.waiting id batch hpending
    rw [calls_of_pending_some hpending] at hflow
    rw [Option.map_some, Option.toList_some]
    refine ⟨by rw [List.flatten_append, List.flatten_singleton, hflow], fun g hg => ?_⟩
    rcases List.mem_append.1 hg with hg | hg
    · exact h.sizes g hg
    · rw [List.mem_singleton.1 hg]
      exact ⟨hone, Nat.le_of_lt hless⟩

end BatchQueue

end WireKeeper
