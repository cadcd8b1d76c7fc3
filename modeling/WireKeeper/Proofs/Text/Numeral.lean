import Mathlib.Tactic.ByContra
import WireKeeper.Text.Basic

/-! # Numerals are read back

The digits of a number have its value, in every radix up to sixteen.

* `valueOfDigits_toDigits`, `digits?_toDigits`: the digits of a number;
* `decimal?_decimal`: a decimal numeral;
* `Numeral`, `decimal?_eq_some`: what is read as a decimal numeral, and as nothing else;
* `eq_zero_of_head?_decimal`: only zero begins with a zero. -/

namespace WireKeeper.Text

variable {radix n : Nat} {c : Char}

/-- A digit has its value, in every radix up to sixteen. -/
theorem digitValue?_digitChar (hradix : radix ≤ 16) (h : n < radix) :
    digitValue? radix n.digitChar = some n := by
  have hall : ∀ (r : Fin 17) (d : Fin 16), d.val < r.val →
      digitValue? r.val d.val.digitChar = some d.val := by decide
  exact hall ⟨radix, by omega⟩ ⟨n, by omega⟩ h

/-- A digit is neither blank nor one of the signs that stand between numbers. -/
theorem of_isSome_digitValue? (h : (digitValue? radix c).isSome = true) :
    isBlank c = false ∧ c ∉ ['+', '.', ':', '/', ',', '\n'] := by
  simp only [digitValue?, Option.isSome_filter] at h
  -- digits are told apart by ranges of characters, which the blanks and the signs are outside of
  have hrange : (48 ≤ c.toNat ∧ c.toNat ≤ 57) ∨ (97 ≤ c.toNat ∧ c.toNat ≤ 102) ∨
      (65 ≤ c.toNat ∧ c.toNat ≤ 70) := by
    by_contra hnone
    rw [if_neg (by omega), if_neg (by omega), if_neg (by omega)] at h
    simp at h
  constructor
  · simp only [isBlank, Bool.or_eq_false_iff, Bool.and_eq_false_iff, decide_eq_false_iff_not,
      beq_eq_false_iff_ne]
    omega
  · intro hmem
    simp only [List.mem_cons, List.not_mem_nil, or_false] at hmem
    rcases hmem with rfl | rfl | rfl | rfl | rfl | rfl <;> revert hrange <;> decide

/-- The digits of a number are digits of the radix. -/
theorem isSome_digitValue?_of_mem (hone : 1 < radix) (hradix : radix ≤ 16)
    (h : c ∈ Nat.toDigits radix n) : (digitValue? radix c).isSome = true := by
  induction n using Nat.strongRecOn with
  | _ n ih =>
    rw [Nat.toDigits_eq_if hone] at h
    by_cases hn : n < radix
    · rw [if_pos hn, List.mem_singleton] at h
      rw [h, digitValue?_digitChar hradix hn]
      rfl
    · rw [if_neg hn, List.mem_append, List.mem_singleton] at h
      rcases h with h | rfl
      · exact ih (n / radix) (Nat.div_lt_self (by omega) hone) h
      · rw [digitValue?_digitChar hradix (Nat.mod_lt n (by omega))]
        rfl

/-- The digits of a number have its value together. -/
theorem valueOfDigits_toDigits (hone : 1 < radix) (hradix : radix ≤ 16) (n : Nat) :
    valueOfDigits radix ((Nat.toDigits radix n).filterMap (digitValue? radix)) = n := by
  induction n using Nat.strongRecOn with
  | _ n ih =>
    rw [Nat.toDigits_eq_if hone]
    by_cases hn : n < radix
    · simp [hn, valueOfDigits, digitValue?_digitChar hradix hn]
    · -- the last digit is the remainder, those before it are the quotient
      have hlast := digitValue?_digitChar hradix (Nat.mod_lt n (show radix > 0 by omega))
      have hfront := ih (n / radix) (Nat.div_lt_self (by omega) hone)
      rw [if_neg hn, List.filterMap_append, valueOfDigits, List.foldl_append, ← valueOfDigits,
        hfront]
      simp [hlast, Nat.div_add_mod']

/-- The values of digits, one by one; it suffices that each of them has one. -/
theorem mapM_digitValue? {s : List Char} (h : ∀ c ∈ s, (digitValue? radix c).isSome = true) :
    s.mapM (digitValue? radix) = some (s.filterMap (digitValue? radix)) := by
  induction s with
  | nil => rfl
  | cons x xs ih =>
    obtain ⟨v, hv⟩ := Option.isSome_iff_exists.1 (h x List.mem_cons_self)
    rw [List.mapM_cons, hv, ih fun c hc => h c (List.mem_cons_of_mem x hc),
      List.filterMap_cons_some hv]
    rfl

/-- The digits of a number are read as it: `digits? radix (Nat.toDigits radix n) = some n`. -/
theorem digits?_toDigits (hone : 1 < radix) (hradix : radix ≤ 16) (n : Nat) :
    digits? radix (Nat.toDigits radix n) = some n := by
  have hne : (Nat.toDigits radix n).isEmpty = false := by
    simp [List.isEmpty_eq_false_iff, Nat.toDigits_ne_nil]
  rw [digits?, hne, if_neg Bool.false_ne_true,
    mapM_digitValue? fun c hc => isSome_digitValue?_of_mem hone hradix hc, Option.map_some,
    valueOfDigits_toDigits hone hradix]

/-- The characters of a decimal numeral are digits. -/
theorem isSome_digitValue?_of_mem_decimal (h : c ∈ decimal n) :
    (digitValue? 10 c).isSome = true := isSome_digitValue?_of_mem (by decide) (by decide) h

/-- A decimal numeral below the bound is read as its number. -/
theorem decimal?_decimal {bound : Nat} (h : n < bound) : decimal? bound (decimal n) = some n := by
  have hread : digits? 10 (decimal n) = some n := digits?_toDigits (by decide) (by decide) n
  rw [decimal?]
  · simp [hread, h]
  · -- no digit is a plus sign
    intro rest heq
    have hsign : '+' ∈ decimal n := heq ▸ List.mem_cons_self
    exact (of_isSome_digitValue? (isSome_digitValue?_of_mem_decimal hsign)).2 List.mem_cons_self

/-- Only the numeral of zero begins with a zero. -/
theorem eq_zero_of_head?_decimal (h : (decimal n).head? = some '0') : n = 0 := by
  induction n using Nat.strongRecOn with
  | _ n ih =>
    rw [decimal, Nat.toDigits_eq_if (by decide)] at h
    by_cases hn : n < 10
    · rw [if_pos hn, List.head?_cons, Option.some.injEq] at h
      exact Nat.digitChar_eq_zero.1 h
    · -- the numeral begins as that of the quotient, which is not zero
      rw [if_neg hn, List.head?_append, List.head?_eq_some_head Nat.toDigits_ne_nil,
        Option.some_or, ← List.head?_eq_some_head] at h
      have hzero := ih (n / 10) (by omega) h
      omega

/-! ## What is a numeral -/

/-- `Numeral s n`: a text is a decimal numeral of a number. It has digits, at least one, of which
each is worth ten times the next one, and there may be one plus sign in front. -/
def Numeral (s : List Char) (n : Nat) : Prop :=
  ∃ digits, (s = digits ∨ s = '+' :: digits) ∧ digits ≠ [] ∧ (∀ c ∈ digits, c.isDigit = true) ∧
    n = digits.foldl (fun v c => v * 10 + (c.toNat - 48)) 0

/-- The decimal digits are the ten characters from `0` on, each worth its distance from there. -/
theorem digitValue?_ten (c : Char) :
    digitValue? 10 c = if c.isDigit then some (c.toNat - 48) else none := by
  have hdigit : c.isDigit = true ↔ 48 ≤ c.toNat ∧ c.toNat ≤ 57 := by
    rw [Char.isDigit, Bool.and_eq_true, decide_eq_true_iff, decide_eq_true_iff]
    exact Iff.rfl
  by_cases h : 48 ≤ c.toNat ∧ c.toNat ≤ 57
  · rw [if_pos (hdigit.2 h), digitValue?]
    simp only [if_pos h, Option.filter_some]
    rw [if_pos (decide_eq_true (by omega))]
  · rw [if_neg (mt hdigit.1 h), digitValue?, Option.filter_eq_none_iff]
    -- the letters are worth ten and more
    intro v hv
    simp only [if_neg h] at hv
    split at hv
    · cases hv
      simp only [decide_eq_true_iff]
      omega
    · split at hv
      · cases hv
        simp only [decide_eq_true_iff]
        omega
      · cases hv

/-- Digits are read one by one, each as its distance from `0`, and nothing else is read. -/
theorem mapM_digitValue?_ten {s : List Char} {values : List Nat} :
    s.mapM (digitValue? 10) = some values ↔
      (∀ c ∈ s, c.isDigit = true) ∧ values = s.map fun c => c.toNat - 48 := by
  induction s generalizing values with
  | nil =>
    rw [List.mapM_nil, List.map_nil]
    exact ⟨fun h => ⟨fun c hc => absurd hc List.not_mem_nil, (Option.some.inj h).symm⟩,
      fun h => congrArg some h.2.symm⟩
  | cons c cs ih =>
    rw [List.mapM_cons, digitValue?_ten, List.forall_mem_cons, List.map_cons]
    by_cases hc : c.isDigit = true
    · rw [if_pos hc, Option.bind_eq_bind, Option.bind_some]
      constructor
      · intro h
        obtain ⟨rest, hrest, h⟩ := Option.bind_eq_some_iff.1 h
        obtain ⟨hdigits, rfl⟩ := ih.1 hrest
        exact ⟨⟨hc, hdigits⟩, (Option.some.inj h).symm⟩
      · rintro ⟨⟨-, hdigits⟩, rfl⟩
        exact Option.bind_eq_some_iff.2 ⟨_, ih.2 ⟨hdigits, rfl⟩, rfl⟩
    · rw [if_neg hc]
      exact ⟨fun h => (nomatch h), fun h => absurd h.1.1 hc⟩

/-- A run of digits, at least one, is read as its value, and nothing else is read. -/
theorem digits?_eq_some {s : List Char} :
    digits? 10 s = some n ↔ s ≠ [] ∧ (∀ c ∈ s, c.isDigit = true) ∧
      n = s.foldl (fun v c => v * 10 + (c.toNat - 48)) 0 := by
  rw [digits?]
  by_cases hempty : s = []
  · rw [hempty]
    exact ⟨fun h => (nomatch h), fun h => absurd rfl h.1⟩
  · rw [if_neg (mt List.isEmpty_iff.1 hempty), Option.map_eq_some_iff]
    constructor
    · rintro ⟨values, hvalues, rfl⟩
      obtain ⟨hdigits, rfl⟩ := mapM_digitValue?_ten.1 hvalues
      exact ⟨hempty, hdigits, List.foldl_map⟩
    · rintro ⟨-, hdigits, rfl⟩
      exact ⟨_, mapM_digitValue?_ten.2 ⟨hdigits, rfl⟩, List.foldl_map⟩

/-- `decimal? bound s = some n ↔ Numeral s n ∧ n < bound`: what is read as a decimal numeral is read
as its number, whatever zeros and sign stand in front, and a number from the bound on is
not read. -/
theorem decimal?_eq_some {bound : Nat} {s : List Char} :
    decimal? bound s = some n ↔ Numeral s n ∧ n < bound := by
  have hplus (digits : List Char) : ¬∀ c ∈ '+' :: digits, c.isDigit = true := fun h =>
    absurd (h '+' List.mem_cons_self) (by decide)
  unfold decimal?
  rw [Option.filter_eq_some_iff, decide_eq_true_iff, and_congr_left_iff]
  intro _
  -- what is read is the text itself, or what stands behind the plus sign
  split
  · next rest =>
    rw [digits?_eq_some]
    constructor
    · exact fun h => ⟨rest, .inr rfl, h⟩
    · rintro ⟨digits, rfl | heq, hdigits⟩
      · exact absurd hdigits.2.1 (hplus rest)
      · cases heq
        exact hdigits
  · next hsign =>
    rw [digits?_eq_some]
    constructor
    · exact fun h => ⟨s, .inl rfl, h⟩
    · rintro ⟨digits, rfl | rfl, hdigits⟩
      · exact hdigits
      · exact absurd rfl (hsign digits)

end WireKeeper.Text
