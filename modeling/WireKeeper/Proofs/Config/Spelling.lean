import Mathlib.Data.List.Basic
import WireKeeper.Proofs.Config.Section

/-! # How an entry can be spelled

An entry is read from what stands before and behind the first equals sign of its line. Blanks around
that sign make no difference, and the letters of the key can be of either case: no letter is a blank
or a sign that makes the line one of another kind.

* `toLower_cases`, `trim_map_toLower`: letters in lower case;
* `Section.sameKey_congr`, `Section.sameKey_trim`: keys that are the same;
* `Line.read_spaced`, `Line.read_recased`: entries that are spelled in another way. -/

namespace WireKeeper.Config

open Text (trim trimStart trimEnd isBlank)

variable {key key' value lead trail s t : List Char} {c d : Char}

/-! ## The case of letters -/

/-- A letter in upper case is changed, to the one 32 places further, and nothing else is. -/
theorem toLower_cases (c : Char) :
    c.toLower = c ∨ 65 ≤ c.toNat ∧ c.toNat ≤ 90 ∧ c.toLower.toNat = c.toNat + 32 := by
  by_cases h : c.val ≥ 'A'.val ∧ c.val ≤ 'Z'.val
  · have hlower : 65 ≤ c.val.toNat := UInt32.le_iff_toNat_le.1 h.1
    have hupper : c.val.toNat ≤ 90 := UInt32.le_iff_toNat_le.1 h.2
    have hdistance : ('a'.val - 'A'.val).toNat = 32 := by decide
    have hchanged : c.toLower.toNat = (c.val + ('a'.val - 'A'.val)).toNat :=
      congrArg Char.toNat (dif_pos h)
    refine .inr ⟨hlower, hupper, ?_⟩
    rw [hchanged, UInt32.toNat_add, hdistance, Nat.mod_eq_of_lt (by omega)]
    rfl
  · exact .inl (dif_neg h)

/-- A character that is a sign in lower case is that sign: below the letters in lower case nothing
has another case. -/
theorem eq_of_toLower (hd : d.toNat < 97) (h : c.toLower = d) : c = d := by
  rcases toLower_cases c with hc | ⟨hlower, -, hc⟩
  · exact hc.symm.trans h
  · rw [h] at hc
    omega

/-- Case makes no blank and takes none away: `isBlank c.toLower = isBlank c`. -/
theorem isBlank_toLower (c : Char) : isBlank c.toLower = isBlank c := by
  rcases toLower_cases c with hc | ⟨hlower, hupper, hc⟩
  · rw [hc]
  · have hletter : ∀ d : Char, 65 ≤ d.toNat → d.toNat ≤ 122 → isBlank d = false := by
      intro d hd hd'
      simp only [isBlank, Bool.or_eq_false_iff, Bool.and_eq_false_iff, beq_eq_false_iff_ne,
        decide_eq_false_iff_not]
      omega
    rw [hletter c hlower (by omega), hletter _ (by omega) (by omega)]

/-- Case does not matter to trimming at the start, which drops as many characters. -/
theorem trimStart_map_toLower (s : List Char) :
    trimStart (s.map Char.toLower) = (trimStart s).map Char.toLower := by
  rw [trimStart, List.dropWhile_map, trimStart, show isBlank ∘ Char.toLower = isBlank from
    funext isBlank_toLower]

/-- Nor to trimming: the text in lower case, trimmed, is the trimmed text in lower case. -/
theorem trim_map_toLower (s : List Char) :
    trim (s.map Char.toLower) = (trim s).map Char.toLower := by
  rw [trim, trimStart_map_toLower, Text.trimEnd_eq_reverse, ← List.map_reverse,
    trimStart_map_toLower, ← List.map_reverse, trim, Text.trimEnd_eq_reverse]

namespace Section

/-- Keys are the same if they are in lower case: `s.map Char.toLower = t.map Char.toLower`. -/
theorem sameKey_iff : sameKey s t = true ↔ s.map Char.toLower = t.map Char.toLower := beq_iff_eq

/-- A key in another case is the same as the same keys, so it has the same values. -/
theorem sameKey_congr (h : sameKey s t = true) (key : List Char) :
    sameKey s key = sameKey t key := by
  rw [sameKey, sameKey, sameKey_iff.1 h]

/-- Keys that are the same as one are the same as each other. -/
theorem sameKey_of_sameKey (hs : sameKey s key = true) (ht : sameKey t key = true) :
    sameKey s t = true := sameKey_iff.2 ((sameKey_iff.1 hs).trans (sameKey_iff.1 ht).symm)

/-- Keys are the same without blanks around them, as these stand at the same places. -/
theorem sameKey_trim (h : sameKey s t = true) : sameKey (trim s) (trim t) = true := by
  rw [sameKey_iff, ← trim_map_toLower, sameKey_iff.1 h, trim_map_toLower]

end Section

/-! ## Lines -/

namespace Line

/-- The first character that is not blank is the same in front of more blanks. -/
theorem head?_trimStart_append (hlead : ∀ c ∈ lead, isBlank c = true) (s : List Char) :
    (trimStart (s ++ lead)).head? = (trimStart s).head? := by
  rw [trimStart, trimStart, List.dropWhile_append]
  split
  · next hempty =>
    rw [List.isEmpty_iff.1 hempty, List.dropWhile_eq_nil_iff.2 hlead]
  · next hne =>
    rw [List.isEmpty_iff] at hne
    exact List.head?_append_of_ne_nil _ hne

/-- The last character that is not blank is the same behind more blanks. -/
theorem getLast?_trimEnd_append (htrail : ∀ c ∈ trail, isBlank c = true) (s : List Char) :
    (trimEnd (trail ++ s)).getLast? = (trimEnd s).getLast? := by
  rw [Text.trimEnd_eq_reverse, Text.trimEnd_eq_reverse, List.getLast?_reverse,
    List.getLast?_reverse, List.reverse_append]
  exact head?_trimStart_append (fun c hc => htrail c (List.mem_reverse.1 hc)) _

/-- Blanks around the equals sign leave an entry what it is: with `lead` in front of the sign and
`trail` behind it, the same key and the same value are read. -/
theorem read_spaced (hkey : '=' ∉ key) (hlead : ∀ c ∈ lead, isBlank c = true)
    (htrail : ∀ c ∈ trail, isBlank c = true) {k v : List Char}
    (h : read (key ++ '=' :: value) = .entry k v) :
    read (key ++ lead ++ '=' :: (trail ++ value)) = .entry k v := by
  obtain ⟨⟨hsigns, hbrackets⟩, rfl, rfl⟩ := (read_eq_entry_iff hkey).1 h
  have hkey' : '=' ∉ key ++ lead := by
    rw [List.mem_append, not_or]
    exact ⟨hkey, fun hmem => absurd (hlead _ hmem) (by decide)⟩
  refine (read_eq_entry_iff hkey').2 ⟨⟨?_, ?_⟩, ?_, ?_⟩
  · rwa [head?_trimStart_append hlead]
  · rwa [head?_trimStart_append hlead, getLast?_trimEnd_append htrail]
  · rw [Text.trim_append_blanks hlead]
  · rw [Text.trim_blanks_append htrail]

/-- A key in another case leaves an entry the value, and its own key but for the case. No letter
makes the line one of another kind, in either case. -/
theorem read_recased (hkey : '=' ∉ key) (hsame : Section.sameKey key' key = true) {k v : List Char}
    (h : read (key ++ '=' :: value) = .entry k v) :
    ∃ k', read (key' ++ '=' :: value) = .entry k' v ∧ Section.sameKey k' k = true := by
  obtain ⟨⟨hsigns, hbrackets⟩, rfl, rfl⟩ := (read_eq_entry_iff hkey).1 h
  have hlower := Section.sameKey_iff.1 hsame
  have hkey' : '=' ∉ key' := by
    intro hmem
    have hmapped : Char.toLower '=' ∈ key.map Char.toLower :=
      hlower ▸ List.mem_map_of_mem hmem
    obtain ⟨c, hc, heq⟩ := List.mem_map.1 hmapped
    cases eq_of_toLower (by decide) heq
    exact hkey hc
  -- signs and brackets are no letters
  have hfirst : (trimStart key').head?.map Char.toLower =
      (trimStart key).head?.map Char.toLower := by
    rw [← List.head?_map, ← List.head?_map, ← trimStart_map_toLower, ← trimStart_map_toLower,
      hlower]
  have hsign : ∀ d : Char, d.toLower = d ∧ d.toNat < 97 → (trimStart key').head? = some d →
      (trimStart key).head? = some d := by
    intro d hd hhead
    rw [hhead] at hfirst
    obtain ⟨c, hc, heq⟩ := Option.map_eq_some_iff.1 hfirst.symm
    rw [hc, eq_of_toLower hd.2 (heq.trans hd.1)]
  refine ⟨_, (read_eq_entry_iff hkey').2 ⟨⟨fun c hc => ⟨?_, ?_⟩, fun h => ?_⟩, rfl, rfl⟩,
    Section.sameKey_trim hsame⟩
  · rintro rfl
    exact (hsigns _ (hsign _ (by decide) hc)).1 rfl
  · rintro rfl
    exact (hsigns _ (hsign _ (by decide) hc)).2 rfl
  · exact hbrackets ⟨hsign _ (by decide) h.1, h.2⟩

end Line

end WireKeeper.Config
