import WireKeeper.Net.Subnet
import WireKeeper.Proofs.Basic
import WireKeeper.Proofs.Text.Numeral
import WireKeeper.Proofs.Text.Trim

/-! # Addresses and nets are read back

What was written is read as the address or net it was written from, by either dialect and whatever
follows that cannot belong to it.

Four octets are read one after the other. The groups of a 128-bit address are read up to the gap or
the end; the gap is as long as the groups leave it, which is as long as it was, since it stands for
zeros only.

* `readOctets_append`: four octets;
* `readGroups_writeGroups`, `eq_of_longestZeros`: groups, and the gap;
* `readWide_append`: a 128-bit address;
* `Address.read?_write`, `Net.read?_write`: whole texts;
* `Address.parse_write`, `Net.parse_write`: whole texts with blanks around them. -/

namespace WireKeeper

open Text (digitValue? decimal isSome_digitValue?_of_mem isSome_digitValue?_of_mem_decimal
  valueOfDigits_toDigits of_isSome_digitValue? joinWith)

namespace Dialect

variable {d : Dialect} {radix size bound n g : Nat} {s rest : List Char} {gs : List Nat}

/-! ## Numbers -/

/-- The digits in front of what is no digit are `s`, and what is left behind them is `rest`. -/
theorem takeWhile_digits (hdigits : ∀ c ∈ s, (digitValue? radix c).isSome = true)
    (hrest : ∀ c ∈ rest.head?, digitValue? radix c = none) :
    (s ++ rest).takeWhile (fun c => (digitValue? radix c).isSome) = s ∧
      (s ++ rest).dropWhile (fun c => (digitValue? radix c).isSome) = rest := by
  rw [List.takeWhile_append_of_pos hdigits, List.dropWhile_append_of_pos hdigits]
  cases rest with
  | nil => simp
  | cons c cs =>
    have hc : digitValue? radix c = none := hrest c rfl
    simp [hc]

/-- The digits of a number are read as it, if there are not too many of them and the number is not
too large. -/
theorem readNumber_append (hone : 1 < radix) (hradix : radix ≤ 16)
    (hsize : (Nat.toDigits radix n).length ≤ size) (hbound : n < bound)
    (hrest : ∀ c ∈ rest.head?, digitValue? radix c = none) :
    readNumber radix size bound (Nat.toDigits radix n ++ rest) = some (n, rest) := by
  have hdigits : ∀ c ∈ Nat.toDigits radix n, (digitValue? radix c).isSome = true :=
    fun c hc => isSome_digitValue?_of_mem hone hradix hc
  obtain ⟨htake, hdrop⟩ := takeWhile_digits hdigits hrest
  have hvalue := valueOfDigits_toDigits hone hradix n
  have hlength : ((Nat.toDigits radix n).filterMap (digitValue? radix)).length =
      (Nat.toDigits radix n).length := length_of_mapM_some (Text.mapM_digitValue? hdigits)
  have hpos : 0 < (Nat.toDigits radix n).length := Nat.length_toDigits_pos
  simp only [readNumber, htake, hdrop, hvalue]
  rw [if_neg]
  simp only [List.isEmpty_iff_length_eq_zero, hlength, Bool.or_eq_true, decide_eq_true_eq]
  omega

/-- No number is read from what does not begin with a digit. -/
theorem readNumber_eq_none (hs : ∀ c ∈ s.head?, digitValue? radix c = none) :
    readNumber radix size bound s = none := by
  obtain ⟨htake, -⟩ := takeWhile_digits (s := []) (by simp) hs
  rw [List.nil_append] at htake
  simp [readNumber, htake]

/-! ## Octets -/

/-- A decimal octet is read, also by a strict reader: it has no superfluous zero in front. -/
theorem readOctet_append (d : Dialect) (hn : n < 256)
    (hrest : ∀ c ∈ rest.head?, digitValue? 10 c = none) :
    d.readOctet (decimal n ++ rest) = some (n, rest) := by
  have hsize : (Nat.toDigits 10 n).length ≤ 3 :=
    (Nat.length_toDigits_le_iff (by decide) (by decide)).2 (by omega)
  have hnumber : readNumber 10 3 256 (decimal n ++ rest) = some (n, rest) :=
    readNumber_append (by decide) (by decide) hsize hn hrest
  rw [readOctet, hnumber]
  show (if _ then none else some (n, rest)) = _
  rw [if_neg]
  -- a numeral that begins with a zero is a single digit
  simp only [Bool.and_eq_true, Bool.not_eq_true', decide_eq_true_eq]
  rintro ⟨⟨-, hzero⟩, hlong⟩
  have hhead : (decimal n).head? = some '0' := by
    obtain ⟨c, cs, hcs⟩ := List.exists_cons_of_ne_nil (Nat.toDigits_ne_nil (n := n) (b := 10))
    rw [decimal, hcs] at hzero ⊢
    exact hzero
  rw [Text.eq_zero_of_head?_decimal hhead, List.length_append] at hlong
  have hone : (decimal 0).length = 1 := rfl
  omega

/-- Four octets are read as the last 32 bits of their number, by either dialect. -/
theorem readOctets_append (d : Dialect) (n : Nat)
    (hrest : ∀ c ∈ rest.head?, digitValue? 10 c = none) :
    d.readOctets (Address.writeOctets n ++ rest) = some (n % twoPow 32, rest) := by
  have hdot : ∀ (t : List Char), ∀ c ∈ ('.' :: t).head?, digitValue? 10 c = none := by
    intro t c hc
    cases hc
    rfl
  have hoctet : ∀ (m : Nat) (t : List Char), d.readOctet (decimal (m % 256) ++ '.' :: t) =
      some (m % 256, '.' :: t) :=
    fun m t => readOctet_append d (Nat.mod_lt m (by decide)) (hdot t)
  have hlast := readOctet_append d (Nat.mod_lt n (by decide)) hrest
  simp only [Address.writeOctets, joinWith, List.append_assoc, List.cons_append, List.nil_append]
  simp only [readOctets, hoctet, hlast, expect, Option.bind_eq_bind, Option.bind_some, if_true]
  -- the octets make up the number
  have hvalue : ((n / twoPow 24 % 256 * 256 + n / twoPow 16 % 256) * 256 + n / twoPow 8 % 256) *
      256 + n % 256 = n % twoPow 32 := by
    simp only [twoPow, Nat.pow_eq, Nat.reducePow]
    omega
  rw [hvalue]

/-- What an octet leaves is what follows the decimal digits. -/
theorem of_readOctet (h : d.readOctet s = some (n, rest)) :
    rest = s.dropWhile fun c => (digitValue? 10 c).isSome := by
  rw [readOctet, Option.bind_eq_bind, Option.bind_eq_some_iff] at h
  obtain ⟨⟨m, t⟩, hnumber, h⟩ := h
  simp only [readNumber] at hnumber
  split at hnumber
  · cases hnumber
  · cases hnumber
    change (if _ then none else some (_, _)) = some (n, rest) at h
    split at h
    · cases h
    · cases h
      rfl

/-- No octets are read where no full stop follows the decimal digits. -/
theorem readOctets_eq_none (d : Dialect)
    (hs : ∀ c ∈ (s.dropWhile fun c => (digitValue? 10 c).isSome).head?, c ≠ '.') :
    d.readOctets s = none := by
  rw [readOctets, Option.bind_eq_bind]
  cases hoctet : d.readOctet s with
  | none => rfl
  | some p =>
    obtain ⟨n, rest⟩ := p
    rw [← of_readOctet hoctet] at hs
    have hdot : expect '.' rest = none := by
      cases rest with
      | nil => rfl
      | cons c cs => exact if_neg (hs c rfl)
    simp [hdot]

/-! ## Groups -/

/-- What **ends groups**: neither a digit nor a full stop, and if it is a colon, no digit
follows. -/
structure EndsGroups (rest : List Char) : Prop where
  head : ∀ c ∈ rest.head?, digitValue? 16 c = none ∧ c ≠ '.'
  colon : ∀ t, rest = ':' :: t → ∀ c ∈ t.head?, digitValue? 16 c = none

/-- What is no hexadecimal digit is no decimal one. -/
theorem digitValue?_ten_of_sixteen {c : Char} (h : digitValue? 16 c = none) :
    digitValue? 10 c = none := by
  simp only [digitValue?, Option.filter_eq_none_iff] at h ⊢
  intro v hv
  have hbig := h v hv
  simp only [decide_eq_true_eq] at hbig ⊢
  omega

/-- No octets are read from a group of hexadecimal digits that no full stop follows, so it is taken
for a group. -/
theorem readOctets_group (d : Dialect) (g : Nat)
    (hrest : ∀ c ∈ rest.head?, digitValue? 16 c = none ∧ c ≠ '.') :
    d.readOctets (Nat.toDigits 16 g ++ rest) = none := by
  refine readOctets_eq_none d fun c hc => ?_
  rw [List.dropWhile_append] at hc
  by_cases hall : ((Nat.toDigits 16 g).dropWhile fun c => (digitValue? 10 c).isSome).isEmpty = true
  · -- all of them are decimal digits
    rw [if_pos hall] at hc
    have hstop : ∀ c ∈ rest.head?, digitValue? 10 c = none :=
      fun c hc => digitValue?_ten_of_sixteen (hrest c hc).1
    obtain ⟨-, hdrop⟩ := takeWhile_digits (s := []) (by simp) hstop
    rw [← List.nil_append rest, hdrop] at hc
    exact (hrest c hc).2
  · -- the first of them that is none is a letter
    rw [if_neg hall, List.head?_append] at hc
    have hmem : c ∈ Nat.toDigits 16 g := by
      cases hletters : (Nat.toDigits 16 g).dropWhile fun c => (digitValue? 10 c).isSome with
      | nil => exact absurd (by rw [hletters]; rfl) hall
      | cons x xs =>
        rw [hletters] at hc
        cases hc
        exact (List.dropWhile_sublist _).subset (hletters ▸ List.mem_cons_self)
    have hdigit := isSome_digitValue?_of_mem (by decide) (by decide) hmem
    rintro rfl
    cases hdigit

/-- No octets are read where no digit is. -/
theorem readOctets_of_head (d : Dialect) (hs : ∀ c ∈ s.head?, digitValue? 16 c = none) :
    d.readOctets s = none := by
  have hnumber : readNumber 10 3 256 s = none :=
    readNumber_eq_none fun c hc => digitValue?_ten_of_sixteen (hs c hc)
  rw [readOctets, readOctet, hnumber]
  rfl

/-- A group is read, and then those that follow it, one fewer than before. -/
theorem readGroups_group (d : Dialect) (hg : g < 65536) {limit : Nat} {first : Bool}
    (hbody : (if first then some s else expect ':' s) = some (Nat.toDigits 16 g ++ rest))
    (hrest : ∀ c ∈ rest.head?, digitValue? 16 c = none ∧ c ≠ '.') :
    d.readGroups (limit + 1) first s =
      (g :: (d.readGroups limit false rest).1, (d.readGroups limit false rest).2) := by
  have hsize : (Nat.toDigits 16 g).length ≤ 4 :=
    (Nat.length_toDigits_le_iff (by decide) (by decide)).2 hg
  have hnumber : readNumber 16 4 65536 (Nat.toDigits 16 g ++ rest) = some (g, rest) :=
    readNumber_append (by decide) (by decide) hsize hg fun c hc => (hrest c hc).1
  rw [readGroups, hbody]
  simp only [readOctets_group d g hrest, ite_self, hnumber]

/-- Where a run of groups ends, none is read. -/
theorem readGroups_end (d : Dialect) (hrest : EndsGroups rest) (limit : Nat) :
    d.readGroups limit false rest = ([], false, rest) := by
  cases limit with
  | zero => rfl
  | succ limit =>
    rw [readGroups]
    cases rest with
    | nil => rfl
    | cons c cs =>
      -- a colon has to be followed by a group, and no other sign leads to one
      by_cases hc : c = ':'
      · subst hc
        have hcs := hrest.colon cs rfl
        have hnumber : readNumber 16 4 65536 cs = none := readNumber_eq_none hcs
        simp [expect, readOctets_of_head d hcs, hnumber]
      · simp [expect, hc]

/-- Where no digit is, no first group is read, and the text is left as it is. -/
theorem readGroups_none (d : Dialect) (hs : ∀ c ∈ s.head?, digitValue? 16 c = none)
    (limit : Nat) : d.readGroups limit true s = ([], false, s) := by
  cases limit with
  | zero => rfl
  | succ limit =>
    have hnumber : readNumber 16 4 65536 s = none := readNumber_eq_none hs
    rw [readGroups]
    simp [readOctets_of_head d hs, hnumber]

/-- Groups with a colon in front of each. -/
def colonGroups (gs : List Nat) : List Char := gs.flatMap fun g => ':' :: Nat.toDigits 16 g

/-- The first group has no colon in front, and all others have one. -/
theorem writeGroups_cons (g : Nat) (gs : List Nat) :
    Address.writeGroups (g :: gs) = Nat.toDigits 16 g ++ colonGroups gs := by
  induction gs generalizing g with
  | nil => simp [Address.writeGroups, colonGroups]
  | cons g' gs ih =>
    have hih := ih g'
    simp only [Address.writeGroups, List.map_cons, joinWith] at hih ⊢
    simp [hih, colonGroups]

/-- What follows a group is another one behind a colon, or the end: no digit and no full stop. -/
theorem head_colonGroups (hrest : EndsGroups rest) (gs : List Nat) :
    ∀ c ∈ (colonGroups gs ++ rest).head?, digitValue? 16 c = none ∧ c ≠ '.' := by
  cases gs with
  | nil => exact hrest.head
  | cons g gs =>
    intro c hc
    simp only [colonGroups, List.flatMap_cons, List.cons_append, List.head?_cons,
      Option.mem_some_iff] at hc
    subst hc
    decide

/-- Groups behind colons are read up to the end of the run. The induction is on the groups. -/
theorem readGroups_colonGroups (d : Dialect) (hgs : ∀ g ∈ gs, g < 65536) {limit : Nat}
    (hlimit : gs.length ≤ limit) (hrest : EndsGroups rest) :
    d.readGroups limit false (colonGroups gs ++ rest) = (gs, false, rest) := by
  induction gs generalizing limit with
  | nil => exact readGroups_end d hrest limit
  | cons g gs ih =>
    obtain ⟨limit, rfl⟩ : ∃ l, limit = l + 1 := ⟨limit - 1, by simp at hlimit; omega⟩
    have hbody : (if false = true then some (colonGroups (g :: gs) ++ rest)
        else expect ':' (colonGroups (g :: gs) ++ rest)) =
          some (Nat.toDigits 16 g ++ (colonGroups gs ++ rest)) := by
      simp [colonGroups, expect]
    rw [readGroups_group d (hgs g List.mem_cons_self) hbody (head_colonGroups hrest gs),
      ih (fun x hx => hgs x (List.mem_cons_of_mem g hx)) (by simpa using hlimit)]

/-- Groups are read up to the end of the run, from none to as many as `limit` allows. -/
theorem readGroups_writeGroups (d : Dialect) (hgs : ∀ g ∈ gs, g < 65536) {limit : Nat}
    (hlimit : gs.length ≤ limit) (hrest : EndsGroups rest) :
    d.readGroups limit true (Address.writeGroups gs ++ rest) = (gs, false, rest) := by
  cases gs with
  | nil => exact readGroups_none d (fun c hc => (hrest.head c hc).1) limit
  | cons g gs =>
    obtain ⟨limit, rfl⟩ : ∃ l, limit = l + 1 := ⟨limit - 1, by simp at hlimit; omega⟩
    have hbody : (if true = true then some (Address.writeGroups (g :: gs) ++ rest)
        else expect ':' (Address.writeGroups (g :: gs) ++ rest)) =
          some (Nat.toDigits 16 g ++ (colonGroups gs ++ rest)) := by
      simp [writeGroups_cons]
    rw [readGroups_group d (hgs g List.mem_cons_self) hbody (head_colonGroups hrest gs),
      readGroups_colonGroups d (fun x hx => hgs x (List.mem_cons_of_mem g hx))
        (by simpa using hlimit) hrest]

end Dialect

/-! ## 128-bit addresses -/

namespace Address

variable {n : Nat} {gs : List Nat}

/-- The longest run of zeros is a run of zeros: the groups are those in front of it, as many zeros,
and those behind it. -/
theorem eq_of_longestZeros (gs : List Nat) :
    (longestZeros gs).1 + (longestZeros gs).2 ≤ gs.length ∧
      gs = gs.take (longestZeros gs).1 ++ List.replicate (longestZeros gs).2 0 ++
        gs.drop ((longestZeros gs).1 + (longestZeros gs).2) := by
  induction gs with
  | nil => simp [longestZeros]
  | cons g gs ih =>
    obtain ⟨hlength, heq⟩ := ih
    rw [longestZeros]
    split
    · -- it begins here
      have hzeros : (g :: gs).takeWhile (· == 0) =
          List.replicate ((g :: gs).takeWhile (· == 0)).length 0 :=
        List.eq_replicate_iff.2
          ⟨rfl, fun b hb => beq_iff_eq.1 (List.all_eq_true.1 List.all_takeWhile b hb)⟩
      obtain ⟨t, ht⟩ := List.takeWhile_prefix (· == 0) (l := g :: gs)
      simp only
      generalize (g :: gs).takeWhile (· == 0) = zeros at hzeros ht ⊢
      rw [← ht]
      simp [← hzeros]
    · refine ⟨by simp only [List.length_cons]; omega, ?_⟩
      simp only [List.take_succ_cons, List.cons_append, List.cons.injEq, true_and]
      rw [show (longestZeros gs).1 + 1 + (longestZeros gs).2 =
        (longestZeros gs).1 + (longestZeros gs).2 + 1 by omega, List.drop_succ_cons]
      exact heq

/-- A 128-bit number has eight groups. -/
theorem length_groups (n : Nat) : (groups n).length = 8 := by simp [groups]

/-- The groups of a number have sixteen bits each. -/
theorem lt_of_mem_groups {g : Nat} (h : g ∈ groups n) : g < 65536 := by
  obtain ⟨i, -, rfl⟩ := List.mem_map.1 h
  exact Nat.mod_lt _ (by decide)

/-- A number is what its groups make up: `ofGroups (groups n) = n` for a number of 128 bits. -/
theorem ofGroups_groups (hn : n < twoPow 128) : Dialect.ofGroups (groups n) = n := by
  have hlist : groups n = [n / twoPow 112 % 65536, n / twoPow 96 % 65536, n / twoPow 80 % 65536,
      n / twoPow 64 % 65536, n / twoPow 48 % 65536, n / twoPow 32 % 65536, n / twoPow 16 % 65536,
      n / twoPow 0 % 65536] := rfl
  rw [hlist]
  simp only [Dialect.ofGroups, List.foldl_cons, List.foldl_nil, twoPow, Nat.pow_eq, Nat.reducePow]
    at hn ⊢
  omega

end Address

namespace Dialect

variable {d : Dialect} {n : Nat} {rest : List Char}

/-- What **ends an address**: neither a digit nor a sign that can stand in one. -/
def EndsAddress (rest : List Char) : Prop :=
  ∀ c ∈ rest.head?, digitValue? 16 c = none ∧ c ≠ '.' ∧ c ≠ ':'

/-- The end of the text ends an address. -/
theorem endsAddress_nil : EndsAddress [] := by
  intro c hc
  cases hc

/-- A slash ends an address, whatever stands behind it. -/
theorem endsAddress_slash (rest : List Char) : EndsAddress ('/' :: rest) := by
  intro c hc
  cases hc
  decide

/-- Where an address ends, its groups do. -/
theorem EndsAddress.endsGroups (h : EndsAddress rest) : EndsGroups rest where
  head c hc := ⟨(h c hc).1, (h c hc).2.1⟩
  colon t ht := absurd rfl (h ':' (by rw [ht]; rfl)).2.2

/-- The gap ends the groups in front of it, as no group stands between its colons. -/
theorem endsGroups_gap (rest : List Char) : EndsGroups (':' :: ':' :: rest) where
  head c hc := by
    cases hc
    decide
  colon t ht c hc := by
    cases ht
    cases hc
    decide

/-- Groups in front of a gap and behind it are read with as many zeros between them as are missing
to eight. -/
theorem readWide_gap (d : Dialect) {front back : List Nat} (hfront : ∀ g ∈ front, g < 65536)
    (hback : ∀ g ∈ back, g < 65536) (hroom : front.length + back.length + 1 < 8)
    (hrest : EndsAddress rest) :
    d.readWide (Address.writeGroups front ++ [':', ':'] ++ Address.writeGroups back ++ rest) =
      some (ofGroups
        (front ++ List.replicate (8 - front.length - back.length) 0 ++ back), rest) := by
  have hread := readGroups_writeGroups d hfront (show front.length ≤ 8 by omega)
    (endsGroups_gap (Address.writeGroups back ++ rest))
  have hbehind := readGroups_writeGroups d hback
    (show back.length ≤ 8 - front.length - if d.emptyGap then 0 else 1 by split <;> omega)
    hrest.endsGroups
  simp only [List.append_assoc, List.cons_append, List.nil_append]
  rw [readWide, hread]
  simp only
  rw [if_neg (by omega), if_neg Bool.false_ne_true]
  simp only [expect, Option.bind_eq_bind, Option.bind_some, if_true, hbehind, List.append_assoc]

/-- A group of ones in front of four octets is read, and then two groups from these octets. -/
theorem readGroups_mapped (d : Dialect) (n limit : Nat) (hrest : EndsAddress rest) :
    d.readGroups (limit + 3) true
        ('f' :: 'f' :: 'f' :: 'f' :: ':' :: (Address.writeOctets n ++ rest)) =
      ([0xFFFF, n % twoPow 32 / 65536, n % twoPow 32 % 65536], true, rest) := by
  have hoctets := readOctets_append d n fun c hc => digitValue?_ten_of_sixteen (hrest c hc).1
  have hdigits : Nat.toDigits 16 0xFFFF = ['f', 'f', 'f', 'f'] := by decide
  have hbehind : d.readGroups (limit + 2) false (':' :: (Address.writeOctets n ++ rest)) =
      ([n % twoPow 32 / 65536, n % twoPow 32 % 65536], true, rest) := by
    rw [readGroups]
    simp [expect, hoctets]
  have hcolon : ∀ c ∈ (':' :: (Address.writeOctets n ++ rest)).head?,
      digitValue? 16 c = none ∧ c ≠ '.' := by
    intro c hc
    cases hc
    decide
  rw [readGroups_group d (show 0xFFFF < 65536 by decide) (by rw [hdigits]; rfl) hcolon, hbehind]

/-- A 128-bit address that stands for a 32-bit one is read as its number: a gap, one group and four
octets. -/
theorem readWide_mapped (d : Dialect) (hmapped : n / twoPow 32 = 0xFFFF)
    (hrest : EndsAddress rest) :
    d.readWide (':' :: ':' :: 'f' :: 'f' :: 'f' :: 'f' :: ':' ::
      (Address.writeOctets n ++ rest)) = some (n, rest) := by
  have hgap : ∀ c ∈ (':' :: ':' :: 'f' :: 'f' :: 'f' :: 'f' :: ':' ::
      (Address.writeOctets n ++ rest)).head?, digitValue? 16 c = none := by
    intro c hc
    cases hc
    rfl
  have hvalue : ofGroups ([] ++ List.replicate 5 0 ++
      [0xFFFF, n % twoPow 32 / 65536, n % twoPow 32 % 65536]) = n := by
    simp only [ofGroups, List.replicate, List.nil_append, List.cons_append, List.foldl_cons,
      List.foldl_nil, twoPow, Nat.pow_eq, Nat.reducePow] at hmapped ⊢
    omega
  rw [readWide, readGroups_none d hgap 8]
  simp only [List.length_nil, expect, Option.bind_eq_bind, Option.bind_some, if_true]
  rw [if_neg (by decide), if_neg Bool.false_ne_true]
  -- the dialects leave room for eight or for seven groups behind the gap
  cases d.emptyGap with
  | true => simpa [readGroups_mapped d n 5 hrest] using hvalue
  | false => simpa [readGroups_mapped d n 4 hrest] using hvalue

/-- A written 128-bit address is read as its number, by either dialect and up to what ends it. -/
theorem readWide_append (d : Dialect) (hn : n < twoPow 128) (hrest : EndsAddress rest) :
    d.readWide (Address.writeWide n ++ rest) = some (n, rest) := by
  have hsmall : ∀ g ∈ Address.groups n, g < 65536 := fun g hg => Address.lt_of_mem_groups hg
  have hlength := Address.length_groups n
  rw [Address.writeWide]
  by_cases hmapped : n / twoPow 32 = 0xFFFF
  · rw [if_pos hmapped]
    simp only [List.cons_append, List.nil_append]
    exact readWide_mapped d hmapped hrest
  · obtain ⟨hzeros, heq⟩ := Address.eq_of_longestZeros (Address.groups n)
    simp only [if_neg hmapped]
    generalize Address.longestZeros (Address.groups n) = run at hzeros heq ⊢
    obtain ⟨start, size⟩ := run
    simp only at hzeros heq ⊢
    by_cases hgap : 1 < size
    · -- the zeros that are missing are those of the gap
      rw [if_pos hgap, readWide_gap d (fun g hg => hsmall g (List.mem_of_mem_take hg))
        (fun g hg => hsmall g (List.mem_of_mem_drop hg))
        (by simp only [List.length_take, List.length_drop]; omega) hrest]
      have hmissing : 8 - ((Address.groups n).take start).length -
          ((Address.groups n).drop (start + size)).length = size := by
        simp only [List.length_take, List.length_drop]
        omega
      rw [hmissing, ← heq, Address.ofGroups_groups hn]
    · -- without a gap all eight groups are there
      have hread := readGroups_writeGroups d hsmall (show (Address.groups n).length ≤ 8 by omega)
        hrest.endsGroups
      rw [if_neg hgap, readWide, hread]
      simp only [hlength, if_true, Address.ofGroups_groups hn]

/-- No octets are read from a written 128-bit address, so the two families are told apart. -/
theorem readOctets_writeWide (d : Dialect) (n : Nat) (hrest : EndsAddress rest) :
    d.readOctets (Address.writeWide n ++ rest) = none := by
  -- it begins with a group, which no full stop follows, or with a colon
  have hgroups : ∀ (gs : List Nat) {rest : List Char}, EndsGroups rest →
      d.readOctets (Address.writeGroups gs ++ rest) = none := by
    intro gs rest hrest
    cases gs with
    | nil => exact readOctets_of_head d fun c hc => (hrest.head c hc).1
    | cons g gs =>
      rw [writeGroups_cons, List.append_assoc]
      exact readOctets_group d g (head_colonGroups hrest gs)
  rw [Address.writeWide]
  split
  · refine readOctets_of_head d fun c hc => ?_
    cases hc
    rfl
  · simp only
    split
    · simp only [List.append_assoc, List.cons_append, List.nil_append]
      exact hgroups _ (endsGroups_gap _)
    · exact hgroups _ hrest.endsGroups

end Dialect

/-! ## Whole texts -/

/-- What joined pieces are made of: each character is one of the separator or of a piece. -/
theorem Text.mem_joinWith {sep : List Char} {ps : List (List Char)} {c : Char}
    (h : c ∈ joinWith sep ps) : c ∈ sep ∨ ∃ p ∈ ps, c ∈ p := by
  induction ps with
  | nil => exact absurd h List.not_mem_nil
  | cons p ps ih =>
    cases ps with
    | nil => exact .inr ⟨p, List.mem_cons_self, h⟩
    | cons q qs =>
      rw [joinWith, List.mem_append, List.mem_append] at h
      rcases h with (h | h) | h
      · exact .inr ⟨p, List.mem_cons_self, h⟩
      · exact .inl h
      · rcases ih h with hsep | ⟨r, hr, hc⟩
        · exact .inl hsep
        · exact .inr ⟨r, List.mem_cons_of_mem p hr, hc⟩

namespace Address

variable {a : Address} {c : Char}

/-- The **signs** of an address: digits, also hexadecimal ones, full stops and colons. -/
def IsSign (c : Char) : Prop := (digitValue? 16 c).isSome = true ∨ c = '.' ∨ c = ':'

/-- A decimal digit is a sign of an address. -/
theorem isSign_of_mem_decimal {n : Nat} (h : c ∈ decimal n) : IsSign c := by
  left
  have hdigit := isSome_digitValue?_of_mem_decimal h
  cases hwide : digitValue? 16 c with
  | some v => rfl
  | none =>
    rw [Dialect.digitValue?_ten_of_sixteen hwide] at hdigit
    cases hdigit

/-- Octets are made of digits and full stops, which are signs. -/
theorem isSign_of_mem_writeOctets {n : Nat} (h : c ∈ writeOctets n) : IsSign c := by
  rcases Text.mem_joinWith h with hdot | ⟨p, hp, hc⟩
  · exact .inr (.inl (List.mem_singleton.1 hdot))
  · simp only [List.mem_cons, List.not_mem_nil, or_false] at hp
    rcases hp with rfl | rfl | rfl | rfl <;> exact isSign_of_mem_decimal hc

/-- Groups are made of digits and colons, which are signs. -/
theorem isSign_of_mem_writeGroups {gs : List Nat} (h : c ∈ writeGroups gs) : IsSign c := by
  rcases Text.mem_joinWith h with hcolon | ⟨p, hp, hc⟩
  · exact .inr (.inr (List.mem_singleton.1 hcolon))
  · obtain ⟨g, -, rfl⟩ := List.mem_map.1 hp
    exact .inl (isSome_digitValue?_of_mem (by decide) (by decide) hc)

/-- What an address is made of: signs, whichever of its forms is written. -/
theorem isSign_of_mem_write (h : c ∈ a.write) : IsSign c := by
  -- four octets, a mapped address, groups with a gap, or all eight groups
  rw [write] at h
  split at h
  · exact isSign_of_mem_writeOctets h
  · rw [writeWide] at h
    split at h
    · rcases List.mem_append.1 h with h | h
      · simp only [List.mem_cons, List.not_mem_nil, or_false] at h
        have hf : IsSign 'f' := .inl rfl
        have hcolon : IsSign ':' := .inr (.inr rfl)
        rcases h with rfl | rfl | rfl | rfl | rfl | rfl | rfl <;> assumption
      · exact isSign_of_mem_writeOctets h
    · simp only at h
      split at h
      · rcases List.mem_append.1 h with h | h
        · rcases List.mem_append.1 h with h | h
          · exact isSign_of_mem_writeGroups h
          · simp only [List.mem_cons, List.not_mem_nil, or_false, or_self] at h
            exact .inr (.inr h)
        · exact isSign_of_mem_writeGroups h
      · exact isSign_of_mem_writeGroups h

/-- A sign of an address is neither blank nor a separator, so an address can stand in a list. -/
theorem IsSign.spec (h : IsSign c) : Text.isBlank c = false ∧ c ≠ ',' ∧ c ≠ '\n' := by
  rcases h with h | rfl | rfl
  · obtain ⟨hblank, hsigns⟩ := of_isSome_digitValue? h
    simp only [List.mem_cons, List.not_mem_nil, or_false, not_or] at hsigns
    exact ⟨hblank, hsigns.2.2.2.2.1, hsigns.2.2.2.2.2⟩
  · decide
  · decide

/-- The number of an address makes up the address, in its own family. -/
theorem ofNat_self {family : Family} (hfamily : a.family = family) :
    ofNat family a.value = a := by
  subst hfamily
  exact ext_value rfl (Nat.mod_eq_of_lt a.value_lt)

/-- The octets of a 32-bit address are read as its number, up to what is no digit. -/
theorem readOctets_value (d : Dialect) (hfamily : a.family = .v4) {rest : List Char}
    (hrest : ∀ c ∈ rest.head?, digitValue? 10 c = none) :
    d.readOctets (writeOctets a.value ++ rest) = some (a.value, rest) := by
  have hvalue := a.value_lt
  rw [hfamily] at hvalue
  rw [Dialect.readOctets_append d a.value hrest,
    Nat.mod_eq_of_lt (show a.value < twoPow 32 from hvalue)]

/-- The text of a 128-bit address is read as its number, and not as octets. -/
theorem readWide_value (d : Dialect) (hfamily : a.family = .v6) {rest : List Char}
    (hrest : Dialect.EndsAddress rest) :
    d.readOctets (writeWide a.value ++ rest) = none ∧
      d.readWide (writeWide a.value ++ rest) = some (a.value, rest) := by
  have hvalue := a.value_lt
  rw [hfamily] at hvalue
  exact ⟨Dialect.readOctets_writeWide d a.value hrest, Dialect.readWide_append d hvalue hrest⟩

/-- A written address is read as it: `read? a.write = some a`. -/
theorem read?_write (a : Address) : read? a.write = some a := by
  rw [write]
  split
  · next hfamily =>
    have hend : ∀ c ∈ ([] : List Char).head?, digitValue? 10 c = none := by simp
    have hread := readOctets_value Dialect.strict hfamily hend
    rw [List.append_nil] at hread
    simp only [read?, hread, ofNat_self hfamily]
  · next hfamily =>
    obtain ⟨hoctets, hread⟩ := readWide_value Dialect.strict hfamily Dialect.endsAddress_nil
    rw [List.append_nil] at hoctets hread
    simp only [read?, hoctets, hread, ofNat_self hfamily]

/-- A written address has no blanks at its ends. -/
theorem trimmed_write (a : Address) : Text.Trimmed a.write :=
  Text.trimmed_of_forall fun _ hc => (isSign_of_mem_write hc).spec.1

/-- A written address is read as it by the reader that trims: `parse (String.ofList a.write) = .ok
a`. -/
theorem parse_write (a : Address) : parse (String.ofList a.write) = .ok a := by
  simp only [parse, String.toList_ofList, a.trimmed_write.trim_eq, read?_write]

end Address

namespace Net

variable {net : Net} {c : Char}

/-- What a net is made of: the signs of its address, digits, and a slash. -/
theorem isSign_of_mem_write (h : c ∈ net.write) : Address.IsSign c ∨ c = '/' := by
  rw [write, List.mem_append, List.mem_cons] at h
  rcases h with h | rfl | h
  · exact .inl (Address.isSign_of_mem_write h)
  · exact .inr rfl
  · exact .inl (Address.isSign_of_mem_decimal h)

/-- A written net has neither blanks nor separators, so it can stand in a list. -/
theorem of_mem_write (h : c ∈ net.write) : Text.isBlank c = false ∧ c ≠ ',' ∧ c ≠ '\n' := by
  rcases isSign_of_mem_write h with h | rfl
  · exact h.spec
  · decide

/-- A prefix length behind a slash is read as it, if it has few enough digits. -/
theorem readNumber_prefixLength {n size bound : Nat} (hbound : n < bound)
    (hlength : (Nat.toDigits 10 n).length ≤ size) :
    Dialect.readNumber 10 size bound (decimal n) = some (n, []) := by
  have hend : ∀ c ∈ ([] : List Char).head?, digitValue? 10 c = none := by simp
  have hread := Dialect.readNumber_append (by decide) (by decide) hlength hbound hend
  rwa [List.append_nil] at hread

/-- A net is made of its address and its prefix length. -/
theorem make?_self (net : Net) : make? net.address net.prefixLength = some net :=
  dif_pos net.prefixLength_le

/-- A written net is read as it: `read? net.write = some net`. -/
theorem read?_write (net : Net) : read? net.write = some net := by
  have hlength := net.prefixLength_le
  have hmake := make?_self net
  rw [write, Address.write]
  split
  -- the family decides how long the prefix and its numeral may be
  · next hfamily =>
    rw [hfamily] at hlength
    have hslash : ∀ c ∈ ('/' :: decimal net.prefixLength).head?, digitValue? 10 c = none := by
      intro c hc
      cases hc
      rfl
    have hread := Address.readOctets_value Dialect.lenient hfamily hslash
    have hnumber : Dialect.readNumber 10 2 33 (decimal net.prefixLength) =
        some (net.prefixLength, []) :=
      readNumber_prefixLength (Nat.lt_succ_of_le hlength)
        ((Nat.length_toDigits_le_iff (by decide) (by decide)).2
          (Nat.lt_of_le_of_lt hlength (by decide)))
    rw [read?]
    simp only [hread, Dialect.expect, if_true, hnumber, Option.bind_eq_bind, Option.bind_some,
      Address.ofNat_self hfamily]
    exact hmake
  · next hfamily =>
    rw [hfamily] at hlength
    obtain ⟨hoctets, hread⟩ := Address.readWide_value Dialect.lenient hfamily
      (Dialect.endsAddress_slash (decimal net.prefixLength))
    have hnumber : Dialect.readNumber 10 3 129 (decimal net.prefixLength) =
        some (net.prefixLength, []) :=
      readNumber_prefixLength (Nat.lt_succ_of_le hlength)
        ((Nat.length_toDigits_le_iff (by decide) (by decide)).2
          (Nat.lt_of_le_of_lt hlength (by decide)))
    rw [read?]
    simp only [hoctets, hread, Dialect.expect, if_true, hnumber, Option.bind_eq_bind,
      Option.bind_some, Option.bind_none, Address.ofNat_self hfamily]
    exact hmake

/-- A written net has no blanks at its ends. -/
theorem trimmed_write (net : Net) : Text.Trimmed net.write :=
  Text.trimmed_of_forall fun _ hc => (of_mem_write hc).1

/-- A written net is read as it by the reader that trims: `parse (String.ofList net.write) = .ok
net`. -/
theorem parse_write (net : Net) : parse (String.ofList net.write) = .ok net := by
  simp only [parse, String.toList_ofList, net.trimmed_write.trim_eq, read?_write]

end Net

end WireKeeper
