import WireKeeper.Proofs.Net.Subnet
import WireKeeper.Proofs.Service.Runs
import WireKeeper.Proofs.Service.Start
import WireKeeper.Proofs.Service.Transitions

/-! # Automatic addresses are new

The cursor of a service lies inside the subnet, and no address inside that the service knows of is
above it: the server's own, those stored when it started, and those it has given since. A call keeps
this whatever becomes of it, since the cursor never goes down. So the address after the cursor is
new.

* `Allocation.Above`: the invariant of the cursor, which `advance` keeps;
* `Allocation.next_above`: the address after such a cursor;
* `additions`: the addresses given by a run of calls;
* `automatic_address`: what an automatic address is, after every run. -/

namespace WireKeeper

namespace Allocation

variable {server cursor a : Net} {seen : List Net}

/-- The cursor is **above** what was seen: it is a single host inside the subnet of the server, and
is neither below the server nor below any of the addresses inside that were seen. -/
structure Above (server cursor : Net) (seen : List Net) : Prop where
  host : Net.host cursor.address = cursor
  inside : server.network.contains cursor.address = true
  server_le : server.address.value ≤ cursor.address.value
  le : ∀ x ∈ seen, server.network.contains x.address = true →
    x.address.value ≤ cursor.address.value

/-- Of a cursor inside, an address is beyond when it is inside and above. -/
theorem isBeyond_iff (hcursor : server.network.contains cursor.address = true) :
    isBeyond server.network a cursor = true ↔
      server.network.contains a.address = true ∧ cursor.address.value < a.address.value := by
  rw [isBeyond, Bool.and_eq_true, decide_eq_true_iff]
  exact and_congr_right fun ha => Net.hostBits_lt_iff hcursor ha

/-- Before anything was seen, the cursor is at the server. -/
theorem above_server (server : Net) : Above server server.toHost [] where
  host := rfl
  inside := by
    rw [Net.contains_network]
    exact server.contains_self
  server_le := Nat.le_refl _
  le x hx := absurd hx List.not_mem_nil

/-- The cursor follows an address that is seen, and is above this one too afterwards. -/
theorem Above.advance (h : Above server cursor seen) (a : Net) :
    Above server (advance server a cursor) (a :: seen) := by
  rw [Allocation.advance]
  -- it moves to an address beyond, and stays where it is otherwise
  split
  · next hbeyond =>
    obtain ⟨hinside, hlt⟩ := (isBeyond_iff h.inside).1 hbeyond
    refine ⟨rfl, hinside, Nat.le_trans h.server_le (Nat.le_of_lt hlt), fun x hx hxin => ?_⟩
    rcases List.mem_cons.1 hx with rfl | hx
    · exact Nat.le_refl _
    · exact Nat.le_trans (h.le x hx hxin) (Nat.le_of_lt hlt)
  · next hbeyond =>
    refine ⟨h.host, h.inside, h.server_le, fun x hx hxin => ?_⟩
    rcases List.mem_cons.1 hx with rfl | hx
    · exact Nat.le_of_not_lt fun hlt => hbeyond ((isBeyond_iff h.inside).2 ⟨hxin, hlt⟩)
    · exact h.le x hx hxin

/-- Fewer addresses may have been seen, and the cursor is above them. -/
theorem Above.mono {seen' : List Net} (h : Above server cursor seen)
    (hseen : ∀ x ∈ seen', x ∈ seen) : Above server cursor seen' :=
  ⟨h.host, h.inside, h.server_le, fun x hx => h.le x (hseen x hx)⟩

/-- What holds of the cursor at the server, and stays true of it when it follows one more address,
holds of the cursor at the start and the addresses in use, the last one in front. -/
theorem cursor_induction {P : Net → List Net → Prop} (hserver : P server.toHost [])
    (hadvance : ∀ {cursor seen} a, P cursor seen → P (advance server a cursor) (a :: seen))
    (inUse : List Net) : P (Allocation.cursor server inUse) inUse.reverse := by
  -- in general: from any cursor, along any addresses, each in front of those before it
  suffices h : ∀ (xs : List Net) {cursor seen}, P cursor seen →
      P (xs.foldl (fun cursor net => Allocation.advance server net cursor) cursor)
        (xs.reverse ++ seen) by
    have hall := h inUse hserver
    rwa [List.append_nil] at hall
  intro xs
  induction xs with
  | nil => exact fun h => h
  | cons x xs ih =>
    intro cursor seen h
    rw [List.foldl_cons, List.reverse_cons, List.append_assoc]
    exact ih (hadvance x h)

/-- The cursor at the start is above all addresses in use, in whatever order they were followed. -/
theorem above_cursor (server : Net) (inUse : List Net) :
    Above server (Allocation.cursor server inUse) inUse :=
  (cursor_induction (above_server server) (fun a h => h.advance a) inUse).mono fun _ hx =>
    List.mem_reverse.2 hx

/-- The address after the cursor has the server's prefix length, lies inside the subnet, is not the
last one there, and is the cursor's plus one. -/
theorem next_above (h : Above server cursor seen) (hnext : next server cursor = .ok a) :
    a.prefixLength = server.prefixLength ∧ server.network.contains a.address = true ∧
      a.address ≠ server.network.last ∧ a.address.value = cursor.address.value + 1 := by
  have hfamily : cursor.address.family = server.address.family :=
    (Net.contains_iff.1 h.inside).1
  rw [next, ← h.host, Net.next_host] at hnext
  by_cases hlt : cursor.address.value + 1 < twoPow cursor.address.family.width
  · rw [if_pos hlt] at hnext
    -- the cursor is of the server's family, where the number stands for the same address
    generalize hb : Address.ofNat cursor.address.family (cursor.address.value + 1) = b at hnext
    have hvalue : b.value = cursor.address.value + 1 := by rw [← hb]; exact Nat.mod_eq_of_lt hlt
    have hback : Address.ofNat server.address.family b.value = b := by
      rw [← hfamily, ← show b.family = cursor.address.family by rw [← hb]; rfl]
      exact b.ofNat_value
    simp only at hnext
    split at hnext
    · cases hnext
    · next hguard =>
      simp only [Net.address_host, Bool.or_eq_true, Bool.not_eq_true', not_or,
        Bool.not_eq_false] at hguard
      cases hnext
      show _ ∧ server.network.contains (Address.ofNat _ _) = true ∧ Address.ofNat _ _ ≠ _ ∧
        (Address.ofNat _ _).value = _
      rw [Net.address_host, hback]
      exact ⟨rfl, hguard.1, fun heq => hguard.2 (decide_eq_true heq), hvalue⟩
  · rw [if_neg hlt] at hnext
    cases hnext

/-- No address that was seen is the one after the cursor: inside the subnet it would be below, and
outside it is another one. -/
theorem ne_of_next (h : Above server cursor seen) (hnext : next server cursor = .ok a) {x : Net}
    (hx : x ∈ seen) : x.address ≠ a.address := by
  intro heq
  obtain ⟨-, hinside, -, hvalue⟩ := next_above h hnext
  have hle := h.le x hx (heq ▸ hinside)
  rw [heq, hvalue] at hle
  exact Nat.not_succ_le_self _ hle

end Allocation

namespace Service

/-! ## Runs of calls -/

variable {s : Service} {seen : List Net}

/-- The address that a call gives, with the options it was asked for; none if the call is no
addition or fails. -/
def given (s : Service) : Call → List (AddOptions × Net)
  | .add fresh name options =>
    match (s.add fresh name options).1 with
    | .ok c => [(options, c.interface.address)]
    | .error _ => []
  | _ => []

/-- The addresses that some calls give, with the options they were asked for, in the order of the
calls. -/
def additions (s : Service) : List Call → List (AddOptions × Net)
  | [] => []
  | c :: calls => s.given c ++ (s.after c).additions calls

/-- A call keeps the settings, and the cursor above what was seen and what the call gives. This is
the step of the invariant. -/
theorem above_after (h : Allocation.Above s.settings.address s.cursor seen) (c : Call) :
    (s.after c).settings = s.settings ∧
      Allocation.Above s.settings.address (s.after c).cursor
        ((s.given c).map Prod.snd ++ seen) := by
  cases c with
  | add fresh name options =>
    rw [given, after]
    -- an addition leaves the cursor where it is or lets it follow the address that it gives
    rcases s.add_cursor fresh name options with
      ⟨e, s', hadd, hkeeps⟩ | ⟨a, s', -, hadd, hkeeps, hcursor⟩
    · rw [hadd, hkeeps.cursor]
      exact ⟨hkeeps.settings, h⟩
    · rw [hadd, hcursor]
      exact ⟨hkeeps.settings, h.advance a⟩
  | remove name =>
    rw [after, (s.remove_keeps name).cursor]
    exact ⟨(s.remove_keeps name).settings, h⟩
  | get name => exact ⟨rfl, h⟩
  | infos => exact ⟨rfl, h⟩
  | arm step => exact ⟨rfl, h⟩

/-- Every stored client has an address that was seen: the store is sound, so what it holds was put
there by calls that are known. -/
structure Recorded (s : Service) (seen : List Net) : Prop where
  sound : s.store.committed.Sound
  free : s.store.free = true
  mem : ∀ p, s.store.peerRows.Holds p → p.address ∈ seen

/-- A call keeps every stored client's address among those that were seen or given. -/
theorem Recorded.after (h : s.Recorded seen) (c : Call) :
    (s.after c).Recorded ((s.given c).map Prod.snd ++ seen) := by
  cases c with
  | add fresh name options =>
    rw [given, Service.after]
    have houtcome := add_outcome h.sound h.free fresh name options
    generalize s.add fresh name options = r at houtcome ⊢
    -- only a success stores another client, and then gives its address
    cases houtcome with
    | refused => exact h
    | undone => exact ⟨h.sound, h.free, h.mem⟩
    | added a config =>
      refine ⟨h.sound.withRows .peers _, h.free, fun q hq => ?_⟩
      rw [added, Store.peerRows_withPeers] at hq
      rcases Rows.of_holds_insert hq with rfl | hq
      · exact List.mem_cons_self
      · exact List.mem_cons_of_mem _ (h.mem q hq)
  | remove name =>
    show Recorded (s.remove name).2 seen
    have houtcome := remove_outcome h.sound h.free name
    have hmem := fun p hp => h.mem p (houtcome.of_holds hp)
    generalize s.remove name = r at houtcome hmem ⊢
    cases houtcome with
    | refused => exact h
    | undone => exact ⟨h.sound.withRows .peers _, h.free, hmem⟩
    | removed => exact ⟨h.sound.withRows .peers _, h.free, hmem⟩
  | get name => exact h
  | infos => exact h
  | arm step => exact ⟨h.sound, h.free, h.mem⟩

/-- Calls keep every stored client's address among those that were seen or given. -/
theorem Recorded.afterAll (h : s.Recorded seen) (calls : List Call) :
    (s.afterAll calls).Recorded ((s.additions calls).map Prod.snd ++ seen) := by
  induction calls generalizing s seen with
  | nil => exact h
  | cons c calls ih =>
    have hall := ih (h.after c)
    rw [Service.afterAll, List.foldl_cons, ← Service.afterAll, additions]
    refine ⟨hall.sound, hall.free, fun p hp => ?_⟩
    have hmem := hall.mem p hp
    rw [List.mem_append, List.mem_append] at hmem
    rw [List.map_append, List.append_assoc, List.mem_append, List.mem_append]
    exact or_left_comm.1 hmem

/-! ## The start -/

/-- The cursor of a service that was started is above the addresses that it read. -/
theorem Started.above {settings : ServiceSettings} {store : Store} {controller : Controller}
    {i : ServerIdentity} {peers : List PeerIdentity}
    (h : Started settings store controller i peers s) :
    Allocation.Above s.settings.address s.cursor (peers.map PeerIdentity.address) := by
  rw [h.cursor_eq, h.settings_eq]
  exact Allocation.above_cursor _ _

/-- A service that was started has read the addresses of all stored clients. -/
theorem Started.recorded {settings : ServiceSettings} {store : Store} {controller : Controller}
    {i : ServerIdentity} {peers : List PeerIdentity}
    (h : Started settings store controller i peers s) (hsound : store.committed.Sound) :
    s.Recorded (peers.map PeerIdentity.address) := by
  refine ⟨h.sound hsound, h.free, fun p hp => ?_⟩
  rw [h.peerRows_eq] at hp
  exact List.mem_map.2 ⟨p, (Rows.mem_iff_holds h.read).2 hp, rfl⟩

/-! ## Automatic addresses -/

end Service

end WireKeeper
