import Mathlib.Data.List.TakeWhile
import WireKeeper.Proofs.Text.Lines

/-! # Words

A text that is split at its separators falls into **runs**, once the empty pieces are dropped; where
the separators are the blanks, the runs are words. How many separators there are between two runs,
and which, does not matter, so words that are put together by single spaces are the words of what
they make up.

* `runs`: the runs between any separators, with `runs_append_cons` and `runs_cons_of_neg`;
* `IsWord`, `isWord_of_mem_words`: what a word is;
* `words_append_blank`, `words_joinWith`: the words of a text that is put together;
* `head?_trim`: a trimmed text begins like its first word. -/

namespace WireKeeper.Text

variable {p : Char → Bool} {c : Char} {s t w : List Char} {ws ws' : List (List Char)}

/-! ## Runs -/

/-- The runs of characters that are no separators, in order; the empty pieces between separators are
dropped. -/
def runs (p : Char → Bool) (s : List Char) : List (List Char) :=
  (s.splitOnP p).filter (!·.isEmpty)

/-- A run has at least one character, and none of them is a separator. -/
theorem of_mem_runs (h : w ∈ runs p s) : w ≠ [] ∧ ∀ c ∈ w, p c = false := by
  obtain ⟨hpiece, hfull⟩ := List.mem_filter.1 h
  exact ⟨by simpa using hfull, forall_of_mem_splitOnP hpiece⟩

/-- A separator parts the runs in front of it from those behind it. -/
theorem runs_append_cons (hc : p c = true) (s t : List Char) :
    runs p (s ++ c :: t) = runs p s ++ runs p t := by
  rw [runs, List.splitOnP_append_cons s t hc, List.filter_append]
  rfl

/-- A separator in front does not matter. -/
theorem runs_cons_of_pos (hc : p c = true) (s : List Char) : runs p (c :: s) = runs p s :=
  runs_append_cons hc [] s

/-- Separators in front do not matter, however many they are. -/
theorem runs_dropWhile (s : List Char) : runs p (s.dropWhile p) = runs p s := by
  induction s with
  | nil => rfl
  | cons c cs ih =>
    by_cases hc : p c = true
    · rw [List.dropWhile_cons_of_pos hc, ih, runs_cons_of_pos hc]
    · rw [List.dropWhile_cons_of_neg hc]

/-- A text without separators is one run, unless it is empty. -/
theorem runs_of_forall (hne : s ≠ []) (h : ∀ c ∈ s, p c = false) : runs p s = [s] := by
  rw [runs, List.splitOnP_eq_singleton h, List.filter_cons_of_pos (by simpa using hne)]
  rfl

/-- A run reaches up to the next separator, and the other runs begin behind that. -/
theorem runs_append_of_forall (hne : s ≠ []) (h : ∀ c ∈ s, p c = false) (t : List Char) :
    runs p (s ++ t) = (s ++ t.takeWhile (!p ·)) :: runs p (t.dropWhile (!p ·)) := by
  have hrun : ∀ c ∈ s ++ t.takeWhile (!p ·), p c = false :=
    List.forall_mem_append.2 ⟨h, fun c hc => by simpa using List.mem_takeWhile_imp hc⟩
  have hsome : s ++ t.takeWhile (!p ·) ≠ [] := List.append_ne_nil_of_left_ne_nil hne _
  have happend : s ++ t = (s ++ t.takeWhile (!p ·)) ++ t.dropWhile (!p ·) := by
    rw [List.append_assoc, List.takeWhile_append_dropWhile]
  have hhead := List.head?_dropWhile_not (!p ·) t
  -- a run, and behind it nothing or a separator
  generalize s ++ t.takeWhile (!p ·) = run at happend hrun hsome
  generalize t.dropWhile (!p ·) = rest at happend hhead
  rw [happend]
  cases rest with
  | nil =>
    rw [List.append_nil, runs_of_forall hsome hrun]
    rfl
  | cons x xs =>
    have hx : p x = true := by simpa using hhead
    rw [runs_append_cons hx, runs_of_forall hsome hrun, runs_cons_of_pos hx]
    rfl

/-- A character that is no separator begins a run, which reaches up to the next separator. -/
theorem runs_cons_of_neg (hc : p c = false) (cs : List Char) :
    runs p (c :: cs) = (c :: cs.takeWhile (!p ·)) :: runs p (cs.dropWhile (!p ·)) :=
  runs_append_of_forall (List.cons_ne_nil c []) (by simpa using hc) cs

/-! ## Words -/

/-- A **word**: at least one character, and no blank. -/
def IsWord (w : List Char) : Prop := w ≠ [] ∧ ∀ c ∈ w, isBlank c = false

/-- What a text is split into at its blanks are words. -/
theorem isWord_of_mem_words (h : w ∈ words s) : IsWord w := of_mem_runs h

/-- A word is split no further. -/
theorem IsWord.words_eq (h : IsWord w) : words w = [w] := runs_of_forall h.1 h.2

/-- A blank parts the words in front of it from those behind it. -/
theorem words_append_blank (hc : isBlank c = true) (s t : List Char) :
    words (s ++ c :: t) = words s ++ words t := runs_append_cons hc s t

/-- A space parts the words of two strings that it stands between. -/
theorem words_spaced (a b : String) :
    words (a ++ " " ++ b).toList = words a.toList ++ words b.toList := by
  rw [String.toList_append, String.toList_append, List.append_assoc]
  exact words_append_blank rfl a.toList b.toList

/-- A text that begins without blanks begins with a word that begins so. -/
theorem words_append_of_isWord (h : IsWord w) (t : List Char) :
    ∃ rest, words (w ++ t) = (w ++ t.takeWhile (!isBlank ·)) :: rest :=
  ⟨_, runs_append_of_forall h.1 h.2 t⟩

/-- Words that are put together by single spaces are split again. -/
theorem words_joinWith (h : ∀ w ∈ ws, IsWord w) : words (joinWith [' '] ws) = ws := by
  induction ws with
  | nil => rfl
  | cons w ws ih =>
    have hw : IsWord w := h w List.mem_cons_self
    cases ws with
    | nil => exact hw.words_eq
    | cons v vs =>
      rw [joinWith, List.append_assoc, List.singleton_append, words_append_blank rfl, hw.words_eq,
        ih fun u hu => h u (List.mem_cons_of_mem w hu)]
      rfl

/-- What words are put together to tells which words they are, and in which order. -/
theorem joinWith_inj (h : ∀ w ∈ ws, IsWord w) (h' : ∀ w ∈ ws', IsWord w) :
    joinWith [' '] ws = joinWith [' '] ws' ↔ ws = ws' := by
  refine ⟨fun heq => ?_, fun heq => heq ▸ rfl⟩
  rw [← words_joinWith h, ← words_joinWith h', heq]

/-- A trimmed text begins as the text does behind the blanks at its start. -/
theorem head?_trim_eq (s : List Char) : (trim s).head? = (trimStart s).head? := by
  cases hstart : trimStart s with
  | nil => rw [trim, hstart]; rfl
  | cons c cs =>
    have hc : isBlank c = false := isBlank_of_head?_trimStart (s := s) (by rw [hstart]; rfl)
    rw [← trim_trimStart, hstart, trim_cons_of_not_blank hc]
    rfl

/-- A trimmed text begins like its first word, or is empty if there is none. -/
theorem head?_trim (s : List Char) : (trim s).head? = (words s).head?.bind List.head? := by
  rw [head?_trim_eq, ← show runs isBlank (trimStart s) = words s from runs_dropWhile s]
  cases hstart : trimStart s with
  | nil => rfl
  | cons c cs =>
    have hc : isBlank c = false := isBlank_of_head?_trimStart (s := s) (by rw [hstart]; rfl)
    rw [runs_cons_of_neg hc]
    rfl

end WireKeeper.Text
