import WireKeeper.Proofs.Store.Access
import WireKeeper.Store.Operation

/-! # Operations in a view

In a view every change is refused before it looks at the database, and what only reads leaves the
database as it is. So no operation changes anything there, on whatever database.

* `Access.Refused`: an access that a view refuses;
* `Access.Reads`: an access that changes nothing in a view;
* `Operation.refused_perform`, `Operation.reads_perform`: the operations. -/

namespace WireKeeper

namespace Access

variable {α β : Type} {a : Access α} {f : α → Access β} {b : Bucket} {key value : Bytes}

/-! ## Changes -/

/-- A view refuses the access and leaves the database as it is, whatever database it is. -/
def Refused (a : Access α) : Prop := ∀ db, a.run .view db = (.error .readOnly, db)

/-- What begins with a change that is refused is refused: the second step is not reached. -/
theorem Refused.bind (h : a.Refused) : (a >>= f).Refused := by
  intro db
  rw [run_bind, h db]

/-- A view is no update, which is what every change asks for first. -/
theorem refused_requireUpdate : requireUpdate.Refused := fun _ => rfl

/-- Writing a new row is a change, also if its key is taken. -/
theorem refused_insertNew : (insertNew b key value).Refused :=
  refused_requireUpdate.bind

/-- Writing a row is a change. -/
theorem refused_put : (put b key value).Refused :=
  refused_requireUpdate.bind

/-- Removing a row is a change, whether it is there or not. -/
theorem refused_erase : (erase b key).Refused :=
  refused_requireUpdate.bind

/-- Removing all rows is a change, also if there are none. -/
theorem refused_clear : (clear b).Refused :=
  refused_requireUpdate.bind

/-! ## Reading -/

/-- The access leaves the database of a view as it is, whatever its result. -/
def Reads (a : Access α) : Prop := ∀ db, (a.run .view db).2 = db

/-- What is refused changes nothing. -/
theorem Refused.reads (h : a.Refused) : a.Reads := fun db => congrArg Prod.snd (h db)

/-- Two steps that change nothing, whatever the first one gives to the second. -/
theorem Reads.bind (ha : a.Reads) (hf : ∀ x, (f x).Reads) : (a >>= f).Reads := fun db =>
  run_bind_snd (ha db) fun x => hf x db

/-- A result that is turned into another one changes nothing more than it did. -/
theorem Reads.map (ha : a.Reads) (g : α → β) : (g <$> a).Reads := by
  intro db
  rw [run_map]
  exact ha db

/-- What needs no database changes none. -/
theorem reads_liftM {r : Except StoreError α} : (liftM r : Access α).Reads := fun _ =>
  congrArg Prod.snd (run_liftM r)

/-- Looking for a row changes nothing. -/
theorem reads_contains : (contains b key).Reads :=
  Reads.bind (fun _ => run_table_snd) fun _ _ => rfl

/-- Listing the rows changes nothing. -/
theorem reads_all : (all b).Reads :=
  Reads.bind (fun _ => run_table_snd) fun _ _ => rfl

end Access

namespace Operation

variable {op : Operation}

/-- A view refuses every operation that changes records, and says that it is read-only. -/
theorem refused_perform (h : op.changes = true) : op.perform.Refused := by
  cases op with
  | addCredential c => exact Access.refused_insertNew.bind.bind
  | setCredential c => exact Access.refused_put.bind
  | removeCredential key =>
    exact (Access.refused_erase.bind : (Credentials.remove key).Refused).bind
  | replaceCredentials cs => exact Access.refused_clear.bind.bind
  | addPeer p => exact Access.refused_insertNew.bind.bind
  | removePeer name => exact Access.refused_erase.bind.bind
  | setServer s => exact Access.refused_put.bind
  | hasCredential | allCredentials | hasPeer | getPeer | allPeers | getServer | hasServer => cases h

/-- No operation changes anything in a view: it is refused, or it only reads. -/
theorem reads_perform : op.perform.Reads := by
  cases hchanges : op.changes with
  | true => exact (refused_perform hchanges).reads
  | false =>
    cases op with
    | hasCredential key => exact Access.reads_contains.map _
    | allCredentials => exact (Access.reads_all.bind fun _ => Access.reads_liftM).map _
    | hasPeer name => exact Access.reads_contains.map _
    | getPeer name => exact Access.Reads.map (fun _ => Peers.run_get_snd) _
    | allPeers => exact (Access.reads_all.bind fun _ => Access.reads_liftM).map _
    | getServer => exact Access.Reads.map (fun _ => Identity.run_get_snd) _
    | hasServer => exact Access.reads_contains.map _
    | addCredential | setCredential | removeCredential | replaceCredentials | addPeer
      | removePeer | setServer => cases hchanges

end Operation

end WireKeeper
