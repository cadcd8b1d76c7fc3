/-! # The batch queue

Calls wait for each other for a short while and are then run as one **group**. The first call of a
group starts a timer with the group's number; the group leaves the queue when that timer fires, or
as soon as it is full. A timer whose group has left already does nothing. -/

namespace WireKeeper

/-- The calls that wait, and the number of the next group. Numbers go around after
`2 ^ 64` groups. -/
structure BatchQueue (α : Type) where
  nextId : UInt64 := 0
  pending : Option (UInt64 × List α) := none
  deriving DecidableEq

namespace BatchQueue

variable {α : Type}

/-- The greatest number of calls in a group: at this size it does not wait any longer. -/
def maxSize : Nat := 1000

/-- What a submission sets off: the queue after it, and a timer or a group, if there is one. -/
structure Submission (α : Type) where
  queue : BatchQueue α
  /-- The timer that is started. -/
  timer : Option UInt64
  /-- The group that leaves the queue because it is full. -/
  group : Option (List α)

/-- Take the pending group out if it is full; otherwise nothing happens. -/
def flushFull (q : BatchQueue α) : BatchQueue α × Option (List α) :=
  match q.pending with
  | some (_, calls) =>
    if maxSize ≤ calls.length then ({ q with pending := none }, some calls) else (q, none)
  | none => (q, none)

/-- Submit a call. It joins the group that waits, or begins one and starts its timer. -/
def submit (q : BatchQueue α) (call : α) : Submission α :=
  match q.pending with
  | some (id, calls) =>
    let (q, group) := flushFull { q with pending := some (id, calls ++ [call]) }
    ⟨q, none, group⟩
  | none =>
    let (queue, group) := flushFull ⟨q.nextId + 1, some (q.nextId, [call])⟩
    ⟨queue, some q.nextId, group⟩

/-- Let a timer fire: the group with its number leaves, if it still waits. -/
def fire (q : BatchQueue α) (timer : UInt64) : BatchQueue α × Option (List α) :=
  match q.pending with
  | some (id, calls) => if id = timer then ({ q with pending := none }, some calls) else (q, none)
  | none => (q, none)

/-- The groups of calls that are submitted one right after the other, before any timer fires; the
last one leaves when its timer does. -/
def groupsFrom (q : BatchQueue α) : List α → List (List α)
  | [] => (q.pending.map Prod.snd).toList
  | call :: calls =>
    let s := q.submit call
    s.group.toList ++ groupsFrom s.queue calls

/-- The groups of calls that are submitted to an empty queue at once, of which only the last need
not be full. -/
def groups (calls : List α) : List (List α) := groupsFrom {} calls

end BatchQueue

end WireKeeper
