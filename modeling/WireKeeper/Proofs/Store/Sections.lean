import WireKeeper.Proofs.Basic
import WireKeeper.Proofs.Store.Transactions

/-! # Who is inside the section

The store only counts who is inside its section, while a session knows them by name. Along every run
the two agree: either one update is inside and nobody else, or a number of views. Ending a
transaction and reopening it under its section do not change who is inside.

* `Session.holding?_hold`, `Session.holding?_forget`: what names stand for after a change;
* `Session.Counted`: how the store counts the holdings;
* `Session.Counted.begin`, `Session.Counted.hold`, `Session.Counted.leave`: what keeps the count
  right;
* `Session.Counted.alone`, `Session.Counted.not_admits`: a section that is held keeps out what
  conflicts with it. -/

namespace WireKeeper

namespace Store

variable {s : Store} {mode : Mode}

/-- A transaction begins on an open store that admits it, works on what is committed and enters the
section. -/
theorem begin_of_admits (hadmits : s.admits mode = true) (hopen : s.closed = false) :
    s.begin mode = .begun ⟨mode, s.committed⟩ (s.enter mode) := by
  refine (if_pos hadmits).trans ?_
  rw [start, hopen]
  rfl

/-- A closed store begins nothing, though it would admit the transaction. -/
theorem begin_of_closed (hadmits : s.admits mode = true) (hclosed : s.closed = true) :
    s.begin mode = .failed .database := by
  refine (if_pos hadmits).trans ?_
  rw [start, hclosed]
  rfl

/-- A store that does not admit a transaction lets it wait, whether it is closed or not. -/
theorem begin_of_not_admits (hadmits : s.admits mode = false) : s.begin mode = .blocked :=
  if_neg fun h => Bool.false_ne_true (hadmits.symm.trans h)

end Store

namespace Session

variable {s : Session} {name other : String} {h h' : Holding} {mode : Mode}

/-! ## Names -/

/-- A name stands for what it was let stand for, and the others for what they stood for. -/
theorem holding?_hold :
    (s.hold name h).holding? other = if other = name then some h else s.holding? other := by
  rw [holding?, hold, List.lookup_cons]
  by_cases heq : other = name
  · rw [if_pos heq, heq, beq_self_eq_true]
  · rw [if_neg heq, beq_false_of_ne heq]
    exact lookup_filter heq

/-- A forgotten name stands for nothing, and the others for what they stood for. -/
theorem holding?_forget :
    (s.forget name).holding? other = if other = name then none else s.holding? other := by
  by_cases heq : other = name
  · rw [if_pos heq, heq]
    exact lookup_filter_self
  · rw [if_neg heq]
    exact lookup_filter heq

/-- Dropping a name that stands for nothing changes nothing. -/
theorem drop_of_none (hname : s.holding? name = none) : s.drop name = s := by
  rw [drop, hname]

/-- Dropping a name that stands for something forgets it and leaves the section with that. -/
theorem drop_of_some (hname : s.holding? name = some h) :
    s.drop name = { s.forget name with store := s.store.leave h.mode } := by
  rw [drop, hname]

/-- Leaving out a name that stands for nothing leaves everything. -/
theorem filter_of_lookup_eq_none {α : Type} {l : List (String × α)} (h : l.lookup name = none) :
    l.filter (·.1 ≠ name) = l := by
  refine List.filter_eq_self.2 fun x hx => ?_
  have hne := List.lookup_eq_none_iff.1 h x hx
  simpa using (bne_iff_ne.1 hne).symm

/-- Leaving out a name that stands for something leaves one less, if the names are different. -/
theorem length_filter_of_lookup {α : Type} {l : List (String × α)} {a : α}
    (hnames : (l.map Prod.fst).Nodup) (h : l.lookup name = some a) :
    (l.filter (·.1 ≠ name)).length + 1 = l.length := by
  induction l with
  | nil => cases h
  | cons x l ih =>
    obtain ⟨n, b⟩ := x
    obtain ⟨hnew, hnames⟩ := List.nodup_cons.1 hnames
    by_cases hn : n = name
    · -- the name stands at the front and nowhere else
      subst hn
      have hrest : l.lookup n = none := by
        rw [List.lookup_eq_none_iff]
        intro y hy
        refine bne_iff_ne.2 fun heq => hnew ?_
        exact List.mem_map.2 ⟨y, hy, heq.symm⟩
      rw [List.filter_cons_of_neg (by simp), filter_of_lookup_eq_none hrest, List.length_cons]
    · rw [List.lookup_cons, beq_false_of_ne (Ne.symm hn)] at h
      rw [List.filter_cons_of_pos (by simpa using hn), List.length_cons, ih hnames h,
        List.length_cons]

/-- Putting a name in front of the others keeps the names different. -/
theorem nodup_hold {α : Type} {l : List (String × α)} (hnames : (l.map Prod.fst).Nodup) (a : α) :
    (((name, a) :: l.filter (·.1 ≠ name)).map Prod.fst).Nodup := by
  refine List.nodup_cons.2 ⟨fun hmem => ?_, hnames.sublist (List.filter_sublist.map _)⟩
  obtain ⟨x, hx, heq⟩ := List.mem_map.1 hmem
  exact absurd heq (by simpa using (List.mem_filter.1 hx).2)

/-! ## Counting -/

/-- The store counts those who hold its section: one update and nobody else, or a number
of views. -/
inductive Counted (s : Session) : Prop where
  | update (name : String) (h : Holding) (hmode : h.mode = .update)
      (hholdings : s.holdings = [(name, h)]) (hupdating : s.store.updating = true)
      (hviews : s.store.views = 0)
  | views (hnames : (s.holdings.map Prod.fst).Nodup) (hmode : ∀ x ∈ s.holdings, x.2.mode = .view)
      (hupdating : s.store.updating = false) (hviews : s.store.views = s.holdings.length)

/-- What a name stands for is one of the holdings. -/
theorem mem_of_holding? (hname : s.holding? name = some h) : (name, h) ∈ s.holdings := by
  obtain ⟨front, back, hsplit, -⟩ := List.lookup_eq_some_iff.1 hname
  rw [hsplit]
  exact List.mem_append_right _ List.mem_cons_self

namespace Counted

/-- Nobody is inside at first, on an open store or a closed one. -/
theorem opened {db : Database} {closed : Bool} :
    Counted ⟨{ committed := db, closed := closed }, []⟩ :=
  .views (by exact List.nodup_nil) (fun _ hx => absurd hx List.not_mem_nil) rfl rfl

/-- If only one name stands for something, then a name that stands for something is that one. -/
theorem eq_of_update (hname : s.holding? name = some h) (hholdings : s.holdings = [(other, h')]) :
    other = name ∧ h' = h := by
  have hmem := mem_of_holding? hname
  rw [hholdings, List.mem_singleton] at hmem
  exact ⟨(congrArg Prod.fst hmem).symm, (congrArg Prod.snd hmem).symm⟩

/-- What a name stands for changes, but neither its mode nor the count. -/
theorem hold {store : Store} (hs : s.Counted) (hname : s.holding? name = some h)
    (hmode : h'.mode = h.mode) (hupdating : store.updating = s.store.updating)
    (hviews : store.views = s.store.views) :
    ({ s with store := store }.hold name h').Counted := by
  cases hs with
  | update other g hg hholdings hup hnone =>
    obtain ⟨rfl, rfl⟩ := eq_of_update hname hholdings
    -- the update is the only holding, and goes on being the only one
    refine .update other h' (hmode.trans hg) ?_ (hupdating.trans hup) (hviews.trans hnone)
    show (other, h') :: s.holdings.filter _ = _
    rw [hholdings, List.filter_cons_of_neg (by simp)]
    rfl
  | views hnames hall hup hcount =>
    -- the view leaves the list and comes back in front, so there are as many as before
    refine .views (nodup_hold hnames h') ?_ (hupdating.trans hup) ?_
    · intro x hx
      rcases List.mem_cons.1 hx with rfl | hx
      · exact hmode.trans (hall _ (mem_of_holding? hname))
      · exact hall x (List.mem_filter.1 hx).1
    · show store.views = (s.holdings.filter _).length + 1
      rw [hviews, hcount, length_filter_of_lookup hnames hname]

/-- A name is forgotten, and the section is left with what it stood for. -/
theorem leave (hs : s.Counted) (hname : s.holding? name = some h) :
    ({ s.forget name with store := s.store.leave h.mode } : Session).Counted := by
  cases hs with
  | update other g hg hholdings hup hnone =>
    obtain ⟨rfl, rfl⟩ := eq_of_update hname hholdings
    -- when the update leaves, there are no views, and nobody is inside any more
    have hgone : s.holdings.filter (·.1 ≠ other) = [] := by
      rw [hholdings, List.filter_cons_of_neg (by simp)]
      rfl
    refine .views ?_ ?_ ?_ ?_
    · rw [forget, hgone]
      exact List.nodup_nil
    · rw [forget, hgone]
      exact fun _ hx => absurd hx List.not_mem_nil
    · rw [hg]
      rfl
    · rw [forget, hgone, hg]
      exact hnone
  | views hnames hall hup hcount =>
    have hview : h.mode = .view := hall _ (mem_of_holding? hname)
    refine .views (hnames.sublist (List.filter_sublist.map _))
      (fun x hx => hall x (List.mem_filter.1 hx).1) ?_ ?_
    · rw [hview]
      exact hup
    · rw [hview]
      show s.store.views - 1 = _
      rw [hcount, ← length_filter_of_lookup hnames hname]
      rfl

/-- A view that is counted already gets a name that stands for nothing. -/
theorem hold_view (hnames : (s.holdings.map Prod.fst).Nodup)
    (hall : ∀ x ∈ s.holdings, x.2.mode = .view) (hup : s.store.updating = false)
    (hcount : s.store.views = s.holdings.length + 1) (hname : s.holding? name = none)
    (hmode : h.mode = .view) : (s.hold name h).Counted := by
  refine .views (nodup_hold hnames h) ?_ hup ?_
  · intro x hx
    rcases List.mem_cons.1 hx with rfl | hx
    · exact hmode
    · exact hall x (List.mem_filter.1 hx).1
  · show s.store.views = (s.holdings.filter _).length + 1
    rw [hcount, filter_of_lookup_eq_none hname]

/-- A transaction that the store admits begins under a name; what the name stood for is dropped only
after the section was entered. -/
theorem begin {work : Database} (hs : s.Counted) (hadmits : s.store.admits mode = true) :
    (({ s with store := s.store.enter mode }.drop name).hold name
      (.transaction ⟨mode, work⟩)).Counted := by
  cases mode with
  | update =>
    obtain ⟨hup, hnone⟩ := Store.free_iff.1 hadmits
    cases hs with
    | update _ _ _ _ hinside =>
      rw [hup] at hinside
      cases hinside
    | views hnames hall _ hcount =>
      -- nobody is inside, so that there is nothing to drop
      have hholdings : s.holdings = [] := List.eq_nil_of_length_eq_zero (hcount.symm.trans hnone)
      have hname : s.holding? name = none := by
        rw [holding?, hholdings]
        rfl
      rw [drop_of_none (s := { s with store := s.store.enter .update }) hname]
      refine .update name (.transaction ⟨.update, work⟩) rfl ?_ rfl hnone
      show (name, _) :: s.holdings.filter _ = _
      rw [hholdings]
      rfl
  | view =>
    cases hs with
    | update _ _ _ _ hinside =>
      rw [Store.admits, hinside] at hadmits
      cases hadmits
    | views hnames hall hup hcount =>
      cases hname : s.holding? name with
      | none =>
        rw [drop_of_none (s := { s with store := s.store.enter .view }) hname]
        exact hold_view hnames hall hup (congrArg (· + 1) hcount) hname rfl
      | some h =>
        -- what the name stood for was a view too
        have hview : h.mode = .view := hall _ (mem_of_holding? hname)
        rw [drop_of_some (s := { s with store := s.store.enter .view }) hname, hview]
        refine hold_view (hnames.sublist (List.filter_sublist.map _))
          (fun x hx => hall x (List.mem_filter.1 hx).1) hup ?_ lookup_filter_self rfl
        exact hcount.trans (length_filter_of_lookup hnames hname).symm

/-- An update that is inside is the only one who is. -/
theorem alone (hs : s.Counted) (hname : s.holding? name = some h) (hmode : h.mode = .update) :
    s.holdings = [(name, h)] := by
  cases hs with
  | update other g hg hholdings =>
    obtain ⟨rfl, rfl⟩ := eq_of_update hname hholdings
    exact hholdings
  | views hnames hall =>
    rw [hall _ (mem_of_holding? hname)] at hmode
    cases hmode

/-- Who is inside keeps out what conflicts with it: everybody if either is an update. -/
theorem not_admits (hs : s.Counted) (hname : s.holding? name = some h)
    (hconflict : h.mode = .update ∨ mode = .update) : s.store.admits mode = false := by
  cases hs with
  | update _ _ _ _ hup =>
    cases mode <;> rw [Store.admits, hup] <;> rfl
  | views hnames hall hup hcount =>
    have hmem := mem_of_holding? hname
    rcases hconflict with hmode | rfl
    · rw [hall _ hmem] at hmode
      cases hmode
    · -- the holding is counted
      have hpos : s.store.views ≠ 0 := by
        rw [hcount]
        exact Nat.ne_of_gt (List.length_pos_of_mem hmem)
      rw [Store.admits, hup, beq_false_of_ne hpos]
      rfl

end Counted

end Session

end WireKeeper
