import Mathlib.Logic.Function.Basic
import WireKeeper.Proofs.AuthorizedKey
import WireKeeper.Proofs.Record.RoundTrip
import WireKeeper.Proofs.Store.Batch
import WireKeeper.Proofs.Store.Credentials
import WireKeeper.Service.Administrators

/-! # The administrators are what the requests made them

A **roster** has at most one key under each blob. Requests change it in the obvious way, and the
store of the credentials follows: it answers every request as the roster does, and lists the keys of
the roster in the order of their blobs.

* `Administrators.Request`, `performAll`: requests and their runs on a store;
* `Roster`, `Roster.step`, `Roster.run`: what requests mean;
* `Roster.brought_run`: nobody is an administrator whom no request made one;
* `Roster.Mirrored`: rows that hold the keys of a roster;
* `Roster.Kept.perform`, `Roster.Kept.performAll`: requests on a store that holds such rows;
* `Roster.Kept.contains`, `Roster.Kept.all`: what is read from it;
* `Administrators.roster_run`: runs. -/

namespace WireKeeper

namespace Administrators

/-- A request that changes the administrators: one key in, one key out, or a list of keys. -/
inductive Request where
  | add (key : AuthorizedKey)
  | remove (blob : Bytes)
  | sync (keys : List AuthorizedKey) (replace : Bool)

/-- Serve a request on a store, with its answer. -/
def Request.perform : Request → Store → Except ServiceError Unit × Store
  | add key => Administrators.add key
  | remove blob => Administrators.remove blob
  | sync keys replace => Administrators.sync keys replace

/-- Serve one request after the other, with all answers. -/
def performAll : List Request → Store → List (Except ServiceError Unit) × Store
  | [], s => ([], s)
  | r :: rs, s =>
    let (result, s) := r.perform s
    let (results, s) := performAll rs s
    (result :: results, s)

/-- A key is **storable** if its comment is short enough for the length of a text in a record. -/
def Storable (key : AuthorizedKey) : Prop := (Utf8.ofString key.comment).length < twoPow 32

/-- Whether a key is storable is decided by the length of its comment. -/
instance : DecidablePred Storable := fun _ => Nat.decLt _ _

/-- The keys that a request brings; a removal brings none. -/
def Request.keys : Request → List AuthorizedKey
  | add key => [key]
  | remove _ => []
  | sync keys _ => keys

/-! ## Rosters -/

/-- A **roster**: the keys of administrators under their blobs. -/
abbrev Roster := Bytes → Option AuthorizedKey

namespace Roster

variable {m : Roster} {rows : Rows} {key : AuthorizedKey} {blob : Bytes} {s : Store}
  {r : Request} {rs : List Request} {cs : List Credential}

/-- The roster without keys. -/
def empty : Roster := fun _ => none

/-- Put a key into a roster, in the place of one with the same blob. -/
def enroll (m : Roster) (key : AuthorizedKey) : Roster := Function.update m key.blob (some key)

/-- Take the key with a blob out of a roster. -/
def dismiss (m : Roster) (blob : Bytes) : Roster := Function.update m blob none

/-- What a request is answered, and what it makes of a roster. Adding refuses a blob that is there,
a list does not. -/
def step (m : Roster) : Request → Except ServiceError Unit × Roster
  | .add key =>
    if (m key.blob).isSome then (.error (.alreadyExists .publicKey), m) else (.ok (), m.enroll key)
  | .remove blob =>
    if (m blob).isSome then (.ok (), m.dismiss blob) else (.error (.notFound .publicKey), m)
  | .sync keys replace => (.ok (), keys.foldl enroll (if replace then empty else m))

/-- What requests are answered one after the other, and what they make of a roster. -/
def run (m : Roster) : List Request → List (Except ServiceError Unit) × Roster
  | [] => ([], m)
  | r :: rs =>
    let (result, m) := m.step r
    let (results, m) := m.run rs
    (result :: results, m)

/-- A key of a roster was there before a new one was put in, or is the new one. -/
theorem brought_enroll {new : AuthorizedKey} (h : m.enroll new blob = some key) :
    m blob = some key ∨ key = new := by
  rw [enroll, Function.update_apply] at h
  split at h
  · exact .inr (Option.some.inj h).symm
  · exact .inl h

/-- A key of a roster was there before others were put in, or is one of them. -/
theorem brought_enrollAll {keys : List AuthorizedKey} (h : keys.foldl enroll m blob = some key) :
    m blob = some key ∨ key ∈ keys := by
  induction keys generalizing m with
  | nil => exact .inl h
  | cons new keys ih =>
    rcases ih h with h | hmem
    · rcases brought_enroll h with h | rfl
      · exact .inl h
      · exact .inr List.mem_cons_self
    · exact .inr (List.mem_cons_of_mem new hmem)

/-- A key that is left in a roster was there before another one was taken out. -/
theorem of_dismiss {other : Bytes} (h : m.dismiss other blob = some key) :
    m blob = some key := by
  rw [dismiss, Function.update_apply] at h
  split at h
  · cases h
  · exact h

/-- A request brings no keys but its own: any other key was in the roster before. -/
theorem brought_step (h : (m.step r).2 blob = some key) : m blob = some key ∨ key ∈ r.keys := by
  -- adding may refuse, removing only takes out, and a list may begin with an empty roster
  cases r with
  | add new =>
    rw [step] at h
    split at h
    · exact .inl h
    · exact (brought_enroll h).imp_right List.mem_singleton.2
  | remove other =>
    rw [step] at h
    split at h
    · exact .inl (of_dismiss h)
    · exact .inl h
  | sync keys replace =>
    refine (brought_enrollAll h).imp_left fun hm => ?_
    cases replace with
    | false => exact hm
    | true => cases hm

/-- **Nobody is an administrator whom no request made one.** A key of the roster after some requests
was there before them, or is among the keys of one. -/
theorem brought_run (h : (m.run rs).2 blob = some key) :
    m blob = some key ∨ ∃ r ∈ rs, key ∈ r.keys := by
  -- what the first request leaves is where the others begin
  induction rs generalizing m with
  | nil => exact .inl h
  | cons r rs ih =>
    rcases ih h with h | ⟨r', hr', hkey⟩
    · exact (brought_step h).imp_right fun hkey => ⟨r, List.mem_cons_self, hkey⟩
    · exact .inr ⟨r', List.mem_cons_of_mem r hr', hkey⟩

/-! ## Rows -/

/-- Rows **mirror** a roster if they hold its keys and nothing else. -/
structure Mirrored (m : Roster) (rows : Rows) : Prop where
  /-- Under each blob there is the record of its key. -/
  get? : ∀ blob, rows.get? blob = (m blob).map fun key => (credential key).encode
  /-- Keys are under their own blobs. -/
  keyed : ∀ blob key, m blob = some key → key.blob = blob

/-- No rows hold no keys: they mirror the empty roster. -/
theorem Mirrored.empty : Roster.empty.Mirrored ∅ := ⟨fun _ => rfl, nofun⟩

/-- Rows say whether there is a key: `rows.contains blob = (m blob).isSome`. -/
theorem Mirrored.contains (h : m.Mirrored rows) (blob : Bytes) :
    rows.contains blob = (m blob).isSome := by
  rw [Rows.contains, h.get?, Option.isSome_map]

/-- The record of a new key is written, and the rows mirror the roster with it. -/
theorem Mirrored.enroll (h : m.Mirrored rows) (key : AuthorizedKey) :
    (m.enroll key).Mirrored (rows.insert key.blob (credential key).encode) where
  get? blob := by
    rw [Rows.get?_insert, Roster.enroll, Function.update_apply, h.get?]
    split <;> rfl
  keyed blob key' h' := by
    rw [Roster.enroll, Function.update_apply] at h'
    split at h'
    · next hblob => rw [← Option.some.inj h', hblob]
    · exact h.keyed blob key' h'

/-- The record of a key is removed, and the rows mirror the roster without it. -/
theorem Mirrored.dismiss (h : m.Mirrored rows) (blob : Bytes) :
    (m.dismiss blob).Mirrored (rows.erase blob) where
  get? other := by
    rw [Rows.get?_erase, Roster.dismiss, Function.update_apply, h.get?]
    split <;> rfl
  keyed other key h' := h.keyed other key (of_dismiss h')

/-- The records of keys are written one after the other, and the rows mirror the roster with all of
them. -/
theorem Mirrored.enrollAll (h : m.Mirrored rows) (keys : List AuthorizedKey) :
    (keys.foldl Roster.enroll m).Mirrored (Credentials.insertAll (keys.map credential) rows) := by
  induction keys generalizing m rows with
  | nil => exact h
  | cons key keys ih => exact ih (h.enroll key)

/-- The rows are the records of the keys, each under its blob. -/
theorem Mirrored.mem_iff (h : m.Mirrored rows) {r : Row} :
    r ∈ rows.toList ↔ ∃ key, m key.blob = some key ∧ r = (key.blob, (credential key).encode) := by
  obtain ⟨blob, value⟩ := r
  rw [← Rows.get?_eq_some_iff, h.get?, Option.map_eq_some_iff]
  constructor
  · rintro ⟨key, hkey, rfl⟩
    -- the row stands under the blob that the roster has the key under, which is the key's own
    obtain rfl := h.keyed blob key hkey
    exact ⟨key, hkey, rfl⟩
  · rintro ⟨key, hkey, heq⟩
    cases heq
    exact ⟨key, hkey, rfl⟩

/-- The record of a storable key is read under its blob as it was written. -/
theorem decode_credential (h : Storable key) :
    Credential.decode key.blob (credential key).encode = .ok (credential key) :=
  Credential.decode_encode (c := credential key) h key.blob

/-- A credential that was read has the key of its row. -/
theorem key_of_decode {key value : Bytes} {c : Credential}
    (h : Credential.decode key value = .ok c) : c.key = key := by
  rw [Credential.decode] at h
  obtain ⟨payload, -, h⟩ := bind_eq_ok.1 h
  obtain ⟨v, -, h⟩ := bind_eq_ok.1 h
  obtain ⟨comment, -, h⟩ := bind_eq_ok.1 h
  cases h
  rfl

/-- Rows that hold the keys of a roster are read as the records of these keys, in the order of the
rows. -/
theorem Mirrored.exists_credentials (h : m.Mirrored rows)
    (hstorable : ∀ blob key, m blob = some key → Storable key) :
    ∃ cs, rows.toList.mapM (fun r => Credential.decode r.1 r.2) = .ok cs ∧
      cs.map Credential.key = rows.toList.map Prod.fst ∧
      ∀ c, c ∈ cs ↔ ∃ key, m key.blob = some key ∧ c = credential key := by
  have hdecode : ∀ key, m key.blob = some key →
      Credential.decode key.blob (credential key).encode = .ok (credential key) :=
    fun key hkey => decode_credential (hstorable key.blob key hkey)
  -- every row is the record of some key of the roster, so every row is read
  obtain ⟨cs, hcs⟩ : ∃ cs, rows.toList.mapM (fun r => Credential.decode r.1 r.2) = .ok cs :=
    exists_mapM_ok fun r hr => by
      obtain ⟨key, hkey, rfl⟩ := h.mem_iff.1 hr
      exact ⟨_, hdecode key hkey⟩
  refine ⟨cs, hcs, map_of_mapM_ok (fun _ _ => key_of_decode) hcs, fun c => ?_⟩
  rw [mem_of_mapM_ok hcs]
  constructor
  · rintro ⟨r, hr, hc⟩
    obtain ⟨key, hkey, rfl⟩ := h.mem_iff.1 hr
    exact ⟨key, hkey, Except.ok.inj (hc.symm.trans (hdecode key hkey))⟩
  · rintro ⟨key, hkey, rfl⟩
    exact ⟨_, h.mem_iff.2 ⟨key, hkey, rfl⟩, hdecode key hkey⟩

/-- The record of a key is read as the key: its blob still names an algorithm. -/
theorem ofCredential_credential (key : AuthorizedKey) :
    ofCredential (credential key) = .ok key := by
  rw [ofCredential, credential, AuthorizedKey.ofBlob_eq_ok.2 ⟨rfl, rfl⟩]
  rfl

/-- A key that was read from a credential has its blob. -/
theorem blob_of_ofCredential {c : Credential} (h : ofCredential c = .ok key) :
    key.blob = c.key := by
  rw [ofCredential] at h
  cases hread : AuthorizedKey.ofBlob c.key c.comment with
  | error e =>
    rw [hread] at h
    cases h
  | ok read =>
    rw [hread] at h
    cases h
    exact (AuthorizedKey.ofBlob_eq_ok.1 hread).1.symm

/-- The records of keys are read as the keys, in their order, and no other keys are read. -/
theorem exists_keys (h : ∀ c ∈ cs, ∃ key, c = credential key) :
    ∃ keys, cs.mapM ofCredential = .ok keys ∧
      keys.map AuthorizedKey.blob = cs.map Credential.key ∧
      ∀ key, key ∈ keys ↔ credential key ∈ cs := by
  obtain ⟨keys, hkeys⟩ : ∃ keys, cs.mapM ofCredential = .ok keys :=
    exists_mapM_ok fun c hc => by
      obtain ⟨key, rfl⟩ := h c hc
      exact ⟨key, ofCredential_credential key⟩
  refine ⟨keys, hkeys, map_of_mapM_ok (fun _ _ => blob_of_ofCredential) hkeys, fun key => ?_⟩
  rw [mem_of_mapM_ok hkeys]
  constructor
  · rintro ⟨c, hc, hkey⟩
    obtain ⟨key', rfl⟩ := h c hc
    rw [ofCredential_credential] at hkey
    exact Except.ok.inj hkey ▸ hc
  · exact fun hc => ⟨_, hc, ofCredential_credential key⟩

/-! ## Requests -/

/-- A store that **keeps** the keys of a roster: it is sound, free and open, and its credentials
mirror the roster. -/
structure Kept (m : Roster) (s : Store) : Prop where
  sound : s.committed.Sound
  free : s.free = true
  isOpen : s.closed = false
  mirrored : m.Mirrored (s.committed.rows .credentials)

/-- A store whose credentials follow a roster keeps its keys, and all else stays as it was. -/
theorem Kept.withRows {m' : Roster} (h : m.Kept s) (hrows : m'.Mirrored rows) :
    m'.Kept (s.withCommitted (s.committed.withRows .credentials rows)) where
  sound := h.sound.withRows .credentials rows
  free := h.free
  isOpen := h.isOpen
  mirrored := by rw [Store.committed_withCommitted, Database.rows_withRows, if_pos rfl]; exact hrows

/-- Adding a key is answered as the roster answers it, and the store keeps the roster after it. -/
theorem Kept.add (h : m.Kept s) (key : AuthorizedKey) :
    (add key s).1 = (m.step (.add key)).1 ∧ (m.step (.add key)).2.Kept (add key s).2 := by
  have hcontains : (s.committed.rows .credentials).contains (credential key).key =
      (m key.blob).isSome := h.mirrored.contains key.blob
  have hupdate := Store.update_of_free h.free h.isOpen (a := Credentials.add (credential key))
  rw [Credentials.run_add h.sound] at hupdate
  by_cases hthere : (m key.blob).isSome = true
  · rw [if_pos (hcontains.trans hthere)] at hupdate
    rw [Administrators.add, hupdate, step, if_pos hthere]
    exact ⟨rfl, h⟩
  · rw [if_neg (hcontains ▸ hthere)] at hupdate
    rw [Administrators.add, hupdate, step, if_neg hthere]
    exact ⟨rfl, h.withRows (h.mirrored.enroll key)⟩

/-- Removing a key is answered as the roster answers it, and the store keeps the roster after it. -/
theorem Kept.remove (h : m.Kept s) (blob : Bytes) :
    (remove blob s).1 = (m.step (.remove blob)).1 ∧
      (m.step (.remove blob)).2.Kept (remove blob s).2 := by
  have hcontains := h.mirrored.contains blob
  rw [Administrators.remove, Store.update_of_free h.free h.isOpen,
    Access.run_bind_ok (Credentials.run_contains h.sound blob)]
  by_cases hthere : (m blob).isSome = true
  · rw [if_pos (hcontains.trans hthere), Credentials.run_remove h.sound, step, if_pos hthere]
    exact ⟨rfl, h.withRows (h.mirrored.dismiss blob)⟩
  · rw [if_neg (hcontains ▸ hthere), step, if_neg hthere]
    exact ⟨rfl, h⟩

/-- A call goes on after a task whose operation succeeds, with the database that it leaves. -/
theorem perform_cons {op : Operation} {reply : Reply} {db db' : Database} (tasks : List Task)
    (h : op.perform.run .update db = (.ok reply, db')) :
    Call.perform (⟨.operation op, false⟩ :: tasks) db = Call.perform tasks db' := by
  rw [Call.perform, Action.perform]
  simp only [h]
  rfl

/-- A call that writes credentials one after the other succeeds, and leaves them written over the
rows that were there. -/
theorem perform_setCredential (cs : List Credential) {db : Database} (hsound : db.Sound) :
    Call.perform (cs.map fun c => ⟨.operation (.setCredential c), false⟩) db =
      some (.ok (), db.withRows .credentials
        (Credentials.insertAll cs (db.rows .credentials))) := by
  -- each task finds the rows that those before it left
  induction cs generalizing db with
  | nil =>
    rw [Credentials.insertAll, List.foldl_nil, hsound.withRows_rows]
    rfl
  | cons c cs ih =>
    have hset : (Operation.setCredential c).perform.run .update db = (.ok .done,
        db.withRows .credentials ((db.rows .credentials).insert c.key c.encode)) :=
      Access.run_bind_ok (Credentials.run_set hsound c)
    rw [List.map_cons, perform_cons _ hset]
    refine (ih (hsound.withRows _ _)).trans ?_
    rw [Database.withRows_withRows, Database.rows_withRows, if_pos rfl]
    rfl

/-- The call of a sync writes credentials over the ones that are there, or over none if they are to
be replaced. -/
theorem perform_syncCall {db : Database} (hsound : db.Sound) (keys : List AuthorizedKey)
    (replace : Bool) :
    Call.perform (syncCall keys replace) db =
      some (.ok (), db.withRows .credentials (Credentials.insertAll (keys.map credential)
        (if replace then ∅ else db.rows .credentials))) := by
  cases replace with
  | false => exact perform_setCredential _ hsound
  | true =>
    have hreplace : (Operation.replaceCredentials (keys.map credential)).perform.run .update db =
        (.ok .done, db.withRows .credentials (Credentials.insertAll (keys.map credential) ∅)) :=
      Access.run_bind_ok (Credentials.run_replaceAll hsound (keys.map credential))
    exact perform_cons [] hreplace

/-- Installing keys writes their credentials in one call, and cannot fail on a sound store. -/
theorem sync_eq (hsound : s.committed.Sound) (hfree : s.free = true) (hopen : s.closed = false)
    (keys : List AuthorizedKey) (replace : Bool) :
    sync keys replace s =
      (.ok (), s.withCommitted (s.committed.withRows .credentials
        (Credentials.insertAll (keys.map credential)
          (if replace then ∅ else s.committed.rows .credentials)))) := by
  have hrun := Batch.run_singleton hfree hopen (perform_syncCall hsound keys replace)
  rw [Administrators.sync, hrun]
  rfl

/-- Installing keys is answered as the roster answers it, and the store keeps the roster
after it. -/
theorem Kept.sync (h : m.Kept s) (keys : List AuthorizedKey) (replace : Bool) :
    (sync keys replace s).1 = (m.step (.sync keys replace)).1 ∧
      (m.step (.sync keys replace)).2.Kept (sync keys replace s).2 := by
  rw [sync_eq h.sound h.free h.isOpen]
  refine ⟨rfl, h.withRows ?_⟩
  -- with a replacement the keys are put into the roster without keys, as they are into no rows
  cases replace with
  | false => exact h.mirrored.enrollAll keys
  | true => exact Mirrored.empty.enrollAll keys

/-- **Every request is answered as the roster answers it**, and the store keeps the keys of the
roster afterwards. This is the step of the invariant. -/
theorem Kept.perform (h : m.Kept s) (r : Request) :
    (r.perform s).1 = (m.step r).1 ∧ (m.step r).2.Kept (r.perform s).2 := by
  cases r with
  | add key => exact h.add key
  | remove blob => exact h.remove blob
  | sync keys replace => exact h.sync keys replace

/-- One request after the other is answered as the roster answers it. The induction is on the
requests. -/
theorem Kept.performAll (h : m.Kept s) (rs : List Request) :
    (performAll rs s).1 = (m.run rs).1 ∧ (m.run rs).2.Kept (performAll rs s).2 := by
  induction rs generalizing m s with
  | nil => exact ⟨rfl, h⟩
  | cons r rs ih =>
    obtain ⟨hresult, hkept⟩ := h.perform r
    obtain ⟨hresults, hkept⟩ := ih hkept
    exact ⟨congrArg₂ List.cons hresult hresults, hkept⟩

/-! ## Reading -/

/-- Whether a blob belongs to an administrator is whether the roster has a key under it. -/
theorem Kept.contains (h : m.Kept s) (blob : Bytes) :
    contains blob s = .ok (m blob).isSome := by
  have hview : s.view (Credentials.contains blob) = .ok (m blob).isSome :=
    Store.view_eq_ok.2 ⟨(Store.free_iff.1 h.free).1, h.isOpen, by
      rw [Credentials.run_contains h.sound, h.mirrored.contains]⟩
  rw [Administrators.contains, hview]
  rfl

/-- The keys that are listed are those of the roster, once each and in the order of their blobs. -/
theorem Kept.all (h : m.Kept s) (hstorable : ∀ blob key, m blob = some key → Storable key) :
    ∃ keys, all s = .ok keys ∧ keys.Pairwise (fun k l => k.blob < l.blob) ∧
      ∀ key, key ∈ keys ↔ m key.blob = some key := by
  obtain ⟨cs, hcs, hcsKeys, hcsMem⟩ := h.mirrored.exists_credentials hstorable
  obtain ⟨keys, hkeys, hblobs, hkeysMem⟩ := exists_keys fun c hc =>
    let ⟨key, _, hkey⟩ := (hcsMem c).1 hc
    ⟨key, hkey⟩
  have hview : s.view Credentials.all = .ok cs :=
    Store.view_eq_ok.2 ⟨(Store.free_iff.1 h.free).1, h.isOpen, by
      rw [Credentials.run_all h.sound, hcs]⟩
  refine ⟨keys, ?_, ?_, fun key => ?_⟩
  · rw [Administrators.all, hview]
    exact hkeys
  · -- the blobs are the keys of the rows, which are in order
    refine List.pairwise_map.1 (?_ : (keys.map AuthorizedKey.blob).Pairwise (· < ·))
    rw [hblobs, hcsKeys]
    exact List.pairwise_map.2 (s.committed.rows .credentials).sorted
  · rw [hkeysMem, hcsMem]
    constructor
    · rintro ⟨key', hkey', hsame⟩
      -- keys with the same record are the same, since the record is read as both
      have hread := ofCredential_credential key
      rw [hsame, ofCredential_credential] at hread
      exact Except.ok.inj hread ▸ hkey'
    · exact fun hkey => ⟨key, hkey, rfl⟩

end Roster

/-- **The administrators are what the requests made them.** On a store that begins without
credentials, whatever requests are served, repeated blobs and refusals included: each is answered as
the roster answers it, and then a blob belongs to an administrator if the roster has a key under it.
If the records of its keys have room for their comments, listing gives the keys of the roster, once
each, in the order of their blobs. -/
theorem roster_run {s : Store} (hsound : s.committed.Sound) (hfree : s.free = true)
    (hopen : s.closed = false) (hempty : s.committed.rows .credentials = ∅) (rs : List Request) :
    (performAll rs s).1 = (Roster.empty.run rs).1 ∧
      (∀ blob, contains blob (performAll rs s).2 =
        .ok ((Roster.empty.run rs).2 blob).isSome) ∧
      ((∀ blob key, (Roster.empty.run rs).2 blob = some key → Storable key) →
        ∃ keys, all (performAll rs s).2 = .ok keys ∧
          keys.Pairwise (fun k l => k.blob < l.blob) ∧
          ∀ key, key ∈ keys ↔ (Roster.empty.run rs).2 key.blob = some key) := by
  have hbegin : Roster.empty.Kept s := ⟨hsound, hfree, hopen, hempty ▸ Roster.Mirrored.empty⟩
  obtain ⟨hresults, hkept⟩ := hbegin.performAll rs
  exact ⟨hresults, hkept.contains, hkept.all⟩

/-- A key with a short blob, under any comment. -/
def firstKey (comment : String) : AuthorizedKey :=
  ⟨"rsa", [0, 0, 0, 3, 0x72, 0x73, 0x61, 1], comment, by decide +kernel⟩

/-- A key with another blob, under any comment. -/
def secondKey (comment : String) : AuthorizedKey :=
  ⟨"rsa", [0, 0, 0, 3, 0x72, 0x73, 0x61, 2], comment, by decide +kernel⟩

/-- A key that is added twice, one that is not there, and a list with a repeated blob. -/
def repeatingRequests : List Request :=
  [.add (firstKey "alice"), .add (firstKey "mallory"), .remove [9],
    .sync [secondKey "ops", firstKey "alice@host", secondKey "ops@host"] false]

/-- The last comment counts that was given to a blob by a list; a refused one never does. -/
theorem roster_run_repeating :
    (performAll repeatingRequests {}).1 =
      [.ok (), .error (.alreadyExists .publicKey), .error (.notFound .publicKey), .ok ()] ∧
    contains (firstKey "").blob (performAll repeatingRequests {}).2 = .ok true ∧
    contains [9] (performAll repeatingRequests {}).2 = .ok false ∧
    ∃ keys, all (performAll repeatingRequests {}).2 = .ok keys ∧
      firstKey "alice@host" ∈ keys ∧ secondKey "ops@host" ∈ keys ∧ secondKey "ops" ∉ keys := by
  obtain ⟨hresults, hcontains, hall⟩ :=
    roster_run (s := {}) Database.sound_empty rfl rfl rfl repeatingRequests
  have hbrought : ∀ r ∈ repeatingRequests, ∀ key ∈ r.keys, Storable key := by decide +kernel
  obtain ⟨keys, hkeys, -, hmem⟩ := hall fun blob key h => by
    rcases Roster.brought_run h with hempty | ⟨r, hr, hkey⟩
    · cases hempty
    · exact hbrought r hr key hkey
  refine ⟨hresults.trans (by decide +kernel), (hcontains _).trans (by decide +kernel),
    (hcontains _).trans (by decide +kernel), keys, hkeys, ?_, ?_, ?_⟩
  · exact (hmem _).2 (by decide +kernel)
  · exact (hmem _).2 (by decide +kernel)
  · exact fun h => absurd ((hmem _).1 h) (by decide +kernel)

end Administrators

end WireKeeper
