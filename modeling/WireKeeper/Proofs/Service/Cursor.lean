import WireKeeper.Proofs.Service.Allocation

/-! # The cursor as a maximum

A cursor that is above all addresses that were seen and has reached one of them, or the server's
own, is the highest of them: its number is decided by what was seen, whatever the order in which it
was. The address after it is decided by its number.

* `Allocation.Reached`: the cursor is one of the addresses, which `advance` keeps;
* `Allocation.Above.ext_value`: a cursor is its number;
* `Allocation.next_of_inside`, `Allocation.next_le`: the address after a cursor, and after a lower
  one. -/

namespace WireKeeper.Allocation

variable {server cursor cursor' a : Net} {seen : List Net}

/-- The cursor has **reached** the server's own address or one of those inside that were seen. -/
def Reached (server cursor : Net) (seen : List Net) : Prop :=
  cursor = server.toHost ∨
    ∃ x ∈ seen, server.network.contains x.address = true ∧ cursor = x.toHost

/-- A cursor that follows an address has reached it, or what it had reached before. -/
theorem Reached.advance (h : Reached server cursor seen) (a : Net) :
    Reached server (advance server a cursor) (a :: seen) := by
  rw [Allocation.advance]
  split
  · next hbeyond =>
    rw [isBeyond, Bool.and_eq_true] at hbeyond
    exact .inr ⟨a, List.mem_cons_self, hbeyond.1, rfl⟩
  · rcases h with h | ⟨x, hx, hinside, heq⟩
    · exact .inl h
    · exact .inr ⟨x, List.mem_cons_of_mem _ hx, hinside, heq⟩

/-- The cursor at the start has reached one of the addresses in use, or the server's. -/
theorem reached_cursor (server : Net) (inUse : List Net) :
    Reached server (Allocation.cursor server inUse) inUse := by
  have hreached : Reached server (Allocation.cursor server inUse) inUse.reverse :=
    cursor_induction (.inl rfl) (fun a h => h.advance a) inUse
  exact hreached.imp id fun ⟨x, hx, hrest⟩ => ⟨x, List.mem_reverse.1 hx, hrest⟩

/-- A cursor that has reached no more than was seen is not above one that is above all of it. -/
theorem Reached.le (h : Reached server cursor seen) (habove : Above server cursor' seen) :
    cursor.address.value ≤ cursor'.address.value := by
  rcases h with rfl | ⟨x, hx, hinside, rfl⟩
  · exact habove.server_le
  · exact habove.le x hx hinside

/-- Cursors inside the subnet are told apart by their numbers: two with one number are equal. -/
theorem Above.ext_value {seen' : List Net} (h : Above server cursor seen)
    (h' : Above server cursor' seen') (hvalue : cursor.address.value = cursor'.address.value) :
    cursor = cursor' := by
  have hfamily : cursor.address.family = cursor'.address.family :=
    (Net.contains_iff.1 h.inside).1.trans (Net.contains_iff.1 h'.inside).1.symm
  rw [← h.host, ← h'.host, Address.ext_value hfamily hvalue]

/-- There is an address after the cursor if and only if the one after that is not beyond the last
one of the subnet. So the last address is never given. -/
theorem next_of_inside (hhost : Net.host cursor.address = cursor)
    (hinside : server.network.contains cursor.address = true) :
    next server cursor =
      if cursor.address.value + 1 < server.network.last.value then
        .ok (server.withValue (cursor.address.value + 1))
      else .error (.exhausted server.network) := by
  obtain ⟨hfamily, hlow, -⟩ := Net.contains_iff_between.1 hinside
  have hlast : server.network.last.value < twoPow cursor.address.family.width := by
    rw [hfamily]
    exact server.network.last.value_lt
  rw [next, ← hhost, Net.next_host, Net.address_host]
  by_cases hlt : cursor.address.value + 1 < twoPow cursor.address.family.width
  · rw [if_pos hlt]
    generalize hb : Address.ofNat cursor.address.family (cursor.address.value + 1) = b
    have hvalue : b.value = cursor.address.value + 1 := by rw [← hb]; exact Nat.mod_eq_of_lt hlt
    have hbfamily : b.family = server.network.address.family := by rw [← hb]; exact hfamily
    -- the address after the cursor is of the family and above the network, so only the upper bound
    -- is asked
    have hmem : server.network.contains b = true ↔ b.value ≤ server.network.last.value := by
      rw [Net.contains_iff_between]
      exact ⟨fun h => h.2.2, fun hle => ⟨hbfamily, by omega, hle⟩⟩
    have heq : b = server.network.last ↔ b.value = server.network.last.value :=
      ⟨fun h => congrArg Address.value h, Address.ext_value hbfamily⟩
    show (if !server.network.contains b || b = server.network.last then
      .error (.exhausted server.network) else .ok (server.withValue b.value) :
        Except ServiceError Net) = _
    rw [← hvalue]
    by_cases hroom : b.value < server.network.last.value
    · have hguard : (!server.network.contains b || decide (b = server.network.last)) = false := by
        rw [hmem.2 (Nat.le_of_lt hroom), decide_eq_false fun h => by have := heq.1 h; omega]
        rfl
      rw [hguard, if_neg Bool.false_ne_true, if_pos hroom]
    · have hguard : (!server.network.contains b || decide (b = server.network.last)) = true := by
        rw [Bool.or_eq_true, Bool.not_eq_true', ← Bool.not_eq_true, hmem, decide_eq_true_iff,
          heq]
        omega
      rw [if_pos hguard, if_neg hroom]
  · rw [if_neg hlt, if_neg fun hroom => hlt (Nat.lt_trans hroom hlast)]

/-- There is an address after a cursor that is above what was seen in the same way. -/
theorem next_eq (h : Above server cursor seen) :
    next server cursor =
      if cursor.address.value + 1 < server.network.last.value then
        .ok (server.withValue (cursor.address.value + 1))
      else .error (.exhausted server.network) :=
  next_of_inside h.host h.inside

/-- A lower cursor has a next address whenever a higher one has, and no higher one. -/
theorem next_le {seen' : List Net} (h : Above server cursor seen) (h' : Above server cursor' seen')
    (hle : cursor'.address.value ≤ cursor.address.value) (hnext : next server cursor = .ok a) :
    ∃ a', next server cursor' = .ok a' ∧ a'.address.value ≤ a.address.value := by
  rw [next_eq h] at hnext
  split at hnext
  · next hroom =>
    cases hnext
    have hroom' : cursor'.address.value + 1 < server.network.last.value := by omega
    have hlast : server.network.last.value < twoPow server.address.family.width :=
      server.network.last.value_lt
    refine ⟨_, (next_eq h').trans (if_pos hroom'), ?_⟩
    show (cursor'.address.value + 1) % _ ≤ (cursor.address.value + 1) % _
    rw [Nat.mod_eq_of_lt (Nat.lt_trans hroom' hlast), Nat.mod_eq_of_lt (Nat.lt_trans hroom hlast)]
    omega
  · cases hnext

end WireKeeper.Allocation
