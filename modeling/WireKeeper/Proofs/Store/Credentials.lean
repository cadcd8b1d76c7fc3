import WireKeeper.Proofs.Store.Access

/-! # Accesses to credentials

What the accesses to credentials do on a sound database, where only the rows of the credentials
change.

* `insertAll`: rows with credentials written over them, one after the other;
* `insertAll_insertAll`: once more makes no difference;
* `run_add`, `run_set`, `run_contains`, `run_remove`: single credentials;
* `run_replaceAll`, `run_all`: all credentials. -/

namespace WireKeeper.Credentials

variable {mode : Mode} {db : Database}

/-- Write credentials into rows, one after the other; a later one replaces an earlier one with its
key. -/
def insertAll (cs : List Credential) (rows : Rows) : Rows :=
  cs.foldl (fun rows c => rows.insert c.key c.encode) rows

/-- Under the key of a credential that is written, it does not matter what was there. -/
theorem get?_insertAll_of_mem {cs : List Credential} {c : Credential} (h : c ∈ cs)
    (rows rows' : Rows) : (insertAll cs rows).get? c.key = (insertAll cs rows').get? c.key := by
  suffices hkey : ∀ rows rows' : Rows, (∃ d ∈ cs, d.key = c.key) ∨
      rows.get? c.key = rows'.get? c.key →
        (insertAll cs rows).get? c.key = (insertAll cs rows').get? c.key from
    hkey rows rows' (.inl ⟨c, h, rfl⟩)
  clear h
  -- from the first credential with the key on, both rows have the same under it
  induction cs with
  | nil => exact fun rows rows' hor => hor.resolve_left (by simp)
  | cons d cs ih =>
    intro rows rows' hor
    refine ih _ _ ?_
    by_cases hd : d.key = c.key
    · right
      rw [Rows.get?_insert, Rows.get?_insert, if_pos hd.symm, if_pos hd.symm]
    · rw [Rows.get?_insert, Rows.get?_insert, if_neg (Ne.symm hd), if_neg (Ne.symm hd)]
      exact hor.imp_left fun ⟨e, he, heq⟩ =>
        ⟨e, (List.mem_cons.1 he).resolve_left fun hed => hd (hed ▸ heq), heq⟩

/-- Under any other key there is what was there. -/
theorem get?_insertAll_of_not_mem {cs : List Credential} {key : Bytes}
    (h : ∀ c ∈ cs, c.key ≠ key) (rows : Rows) :
    (insertAll cs rows).get? key = rows.get? key := by
  induction cs generalizing rows with
  | nil => rfl
  | cons c cs ih =>
    refine (ih (fun d hd => h d (List.mem_cons_of_mem c hd)) _).trans ?_
    rw [Rows.get?_insert, if_neg (Ne.symm (h c List.mem_cons_self))]

/-- Writing the same credentials once more changes nothing, though some may have the same key. -/
theorem insertAll_insertAll (cs : List Credential) (rows : Rows) :
    insertAll cs (insertAll cs rows) = insertAll cs rows := by
  refine Rows.ext_get? fun key => ?_
  by_cases hkey : ∃ c ∈ cs, c.key = key
  · obtain ⟨c, hc, rfl⟩ := hkey
    exact get?_insertAll_of_mem hc _ _
  · exact get?_insertAll_of_not_mem (fun c hc heq => hkey ⟨c, hc, heq⟩) _

/-- Adding a credential: a key that is taken is refused and keeps its row. -/
theorem run_add (h : db.Sound) (c : Credential) :
    (add c).run .update db =
      if (db.rows .credentials).contains c.key then (.error (.alreadyExists .publicKey), db)
      else (.ok (), db.withRows .credentials ((db.rows .credentials).insert c.key c.encode)) := by
  have hrun := Access.run_insertNew h .credentials c.key c.encode
  split at hrun
  · next hthere =>
    rw [if_pos hthere]
    exact Access.run_bind_ok hrun
  · next hnew =>
    rw [if_neg hnew]
    exact Access.run_bind_ok hrun

/-- Writing a credential, in place of the one under its key if there is one. -/
theorem run_set (h : db.Sound) (c : Credential) :
    (set c).run .update db =
      (.ok (), db.withRows .credentials ((db.rows .credentials).insert c.key c.encode)) :=
  Access.run_put h .credentials c.key c.encode

/-- Looking for a credential is looking for a row under its key. -/
theorem run_contains (h : db.Sound) (key : Bytes) :
    (contains key).run mode db = (.ok ((db.rows .credentials).contains key), db) :=
  Access.run_contains h .credentials key

/-- Removing the credential under a key succeeds, whether there is one or not. -/
theorem run_remove (h : db.Sound) (key : Bytes) :
    (remove key).run .update db =
      (.ok (), db.withRows .credentials ((db.rows .credentials).erase key)) := by
  have hrun := Access.run_erase h .credentials key
  split at hrun
  · exact Access.run_bind_ok hrun
  · next hgone =>
    have hnone := Rows.contains_eq_false.1 (Bool.not_eq_true _ ▸ hgone)
    rw [Rows.erase_of_get? hnone, h.withRows_rows]
    exact Access.run_bind_ok hrun

/-- Writing credentials one after the other writes them over the rows, and never fails. -/
theorem run_forM_set (h : db.Sound) (cs : List Credential) :
    (cs.forM set).run .update db =
      (.ok (), db.withRows .credentials (insertAll cs (db.rows .credentials))) := by
  induction cs generalizing db with
  | nil =>
    rw [insertAll, List.foldl_nil, h.withRows_rows]
    rfl
  | cons c cs ih =>
    refine (Access.run_bind_ok (run_set h c)).trans ((ih (h.withRows _ _)).trans ?_)
    rw [Database.withRows_withRows, Database.rows_withRows, if_pos rfl]
    rfl

/-- Credentials in the place of all others: what was there before has no say. -/
theorem run_replaceAll (h : db.Sound) (cs : List Credential) :
    (replaceAll cs).run .update db = (.ok (), db.withRows .credentials (insertAll cs ∅)) := by
  refine (Access.run_bind_ok (Access.run_clear h .credentials)).trans ?_
  refine (run_forM_set (h.withRows .credentials ∅) cs).trans ?_
  rw [Database.withRows_withRows, Database.rows_withRows, if_pos rfl]

/-- Reading all credentials: every row must be read, and one that is not fails the whole list. -/
theorem run_all (h : db.Sound) :
    all.run mode db =
      ((db.rows .credentials).toList.mapM fun r => Credential.decode r.1 r.2, db) :=
  (Access.run_bind_ok (Access.run_all h .credentials)).trans (Access.run_liftM _)

end WireKeeper.Credentials
