import Mathlib.Data.List.DropRight
import WireKeeper.Host.Disk
import WireKeeper.Proofs.Basic
import WireKeeper.Proofs.Text.Lines

/-! # Paths and directories

What is put at one path is seen at that path only. The directories of a path, once they are made,
are there for good as long as no node takes the place of one, and making them again changes nothing.
A path as text leads to where its directory part leads, and one part further.

* `Disk.node?_put`, `Disk.node?_put_of_ne`, `Disk.put_put`: nodes;
* `Disk.node?_of_find`, `Disk.node?_of_rename`: files that are found, and files that are moved;
* `Disk.Leads`: all directories down to a path;
* `Disk.of_createDirectories`, `Disk.Leads.createDirectories`: making them, and making them again;
* `Disk.find_eq`: looking below them;
* `Disk.ShortNames`, `Disk.Widens`: names that a disk can hold, and directories that are added;
* `Disk.directoryOf`, `Disk.exists_resolve_eq`: the directory of a file. -/

namespace WireKeeper

/-- What a node holds, if it is a file; directories and databases have no bytes of their
own here. -/
def Node.bytes? : Node → Option Bytes
  | .file contents _ => some contents
  | .directory | .database .. => none

namespace Disk

variable {d d' : Disk} {p q source target : Path} {n m : Node}

/-! ## Nodes -/

/-- A node is where it was put, unless that is the root, which is a directory always. -/
theorem node?_put (d : Disk) (hp : p ≠ []) (n : Node) : (d.put p n).node? p = some n := by
  cases p with
  | nil => exact absurd rfl hp
  | cons part parts => simp [node?, put]

/-- What is found at a path is there: `find` never finds anything but `node?`. -/
theorem node?_of_find (h : d.find p = .ok n) : d.node? p = some n := by
  rw [find] at h
  obtain ⟨_, _, h⟩ := bind_eq_ok.1 h
  split at h
  · next hnode =>
    cases h
    exact hnode
  · cases h

/-- A file that was moved is at its target, the same one that was at the source. -/
theorem node?_of_rename (h : d.rename source target = .ok d') :
    d'.node? target = d.node? source := by
  rw [rename] at h
  obtain ⟨n, hfind, h⟩ := bind_eq_ok.1 h
  obtain ⟨_, _, h⟩ := bind_eq_ok.1 h
  by_cases htarget : target = []
  · -- the root is a directory
    subst htarget
    cases h
  · split at h
    · cases h
    · cases h
      rw [node?_put _ htarget, node?_of_find hfind]

/-- Moving a file leads to no other current directory. -/
theorem current_of_rename (h : d.rename source target = .ok d') : d'.current = d.current := by
  rw [rename] at h
  obtain ⟨n, _, h⟩ := bind_eq_ok.1 h
  obtain ⟨_, _, h⟩ := bind_eq_ok.1 h
  split at h
  · cases h
  · cases h
    rfl

/-- What is put at a path is seen at no other path: `(d.put p n).node? q = d.node? q` for
`q ≠ p`. -/
theorem node?_put_of_ne (d : Disk) (n : Node) (hq : q ≠ p) : (d.put p n).node? q = d.node? q := by
  cases q with
  | nil => rfl
  | cons part parts =>
    show ((p, n) :: d.nodes.filter (·.1 ≠ p)).lookup (part :: parts) =
      d.nodes.lookup (part :: parts)
    rw [List.lookup_cons, beq_false_of_ne hq]
    exact lookup_filter hq

/-- What is removed at a path is missing at no other path: `(d.remove p).node? q = d.node? q` for `q
≠ p`. -/
theorem node?_remove_of_ne (d : Disk) (hq : q ≠ p) : (d.remove p).node? q = d.node? q := by
  cases q with
  | nil => rfl
  | cons part parts => exact lookup_filter hq

/-- What is put last at a path stays, and the node before it leaves no trace. -/
theorem put_put (d : Disk) (p : Path) (n m : Node) : (d.put p n).put p m = d.put p m := by
  have hnodes : ((p, n) :: d.nodes.filter (·.1 ≠ p)).filter (·.1 ≠ p) =
      d.nodes.filter (·.1 ≠ p) := by
    rw [List.filter_cons_of_neg (by simp), List.filter_filter]
    simp only [Bool.and_self]
  rw [put, put, put, hnodes]

/-! ## Directories -/

/-- A disk **leads** to a path if there is a directory at the path and at every path above it. -/
def Leads (d : Disk) (p : Path) : Prop := ∀ k, d.isDirectory (p.take k) = true

/-- Every disk leads to the root. -/
theorem leads_nil (d : Disk) : d.Leads [] := fun k => by
  rw [List.take_nil]
  rfl

/-- Directories are where they were unless something is put in their place: if there was none at
`p`, all are left. -/
theorem isDirectory_put_of_not (n : Node) (hp : d.isDirectory p = false)
    (hq : d.isDirectory q = true) : (d.put p n).isDirectory q = true := by
  have hne : q ≠ p := by
    rintro rfl
    exact Bool.false_ne_true (hp.symm.trans hq)
  rw [isDirectory, node?_put_of_ne d n hne]
  exact hq

/-- The same of all directories down to a path: `d.put p n` leads where `d` does, if there was no
directory at `p`. -/
theorem Leads.put (h : d.Leads q) (n : Node) (hp : d.isDirectory p = false) :
    (d.put p n).Leads q := fun k => isDirectory_put_of_not n hp (h k)

/-- What is put inside a directory takes the place of none that leads to it, as its path
is longer. -/
theorem Leads.put_inside (h : d.Leads p) (name : String) (n : Node) :
    (d.put (p ++ [name]) n).Leads p := by
  intro k
  have hne : p.take k ≠ p ++ [name] := by
    intro heq
    have hlength := congrArg List.length heq
    rw [List.length_take, List.length_append, List.length_singleton] at hlength
    omega
  rw [isDirectory, node?_put_of_ne d n hne]
  exact h k

/-- A directory that is there is not made again. -/
theorem makeDirectory_of_isDirectory {k : Nat} (h : d.isDirectory (p.take (k + 1)) = true) :
    makeDirectory p d k = .ok d := by
  rw [makeDirectory, of_decide_eq_true h]

/-- A directory that was made is there, with those that were there before, and the current directory
is the same. -/
theorem of_makeDirectory {k : Nat} (h : makeDirectory p d k = .ok d') :
    d'.current = d.current ∧ d'.isDirectory (p.take (k + 1)) = true ∧
      ∀ q, d.isDirectory q = true → d'.isDirectory q = true := by
  rw [makeDirectory] at h
  split at h
  -- it is made if nothing is there, and a file in its place is a fault
  · next hnone =>
    split at h
    · cases h
    · cases h
      have hroot : p.take (k + 1) ≠ [] := fun hnil => by
        rw [hnil] at hnone
        cases hnone
      have hmissing : d.isDirectory (p.take (k + 1)) = false := by
        rw [isDirectory, hnone]
        rfl
      exact ⟨rfl, decide_eq_true (node?_put d hroot _), fun q => isDirectory_put_of_not _ hmissing⟩
  · next hsome =>
    cases h
    exact ⟨rfl, decide_eq_true hsome, fun q hq => hq⟩
  · split at h <;> cases h

/-- Where all directories are there, making some of them changes nothing. -/
theorem Leads.createDirectories (h : d.Leads p) : d.createDirectories p = .ok d := by
  rw [Disk.createDirectories]
  induction List.range p.length with
  | nil => rfl
  | cons k ks ih =>
    rw [List.foldlM_cons, makeDirectory_of_isDirectory (h (k + 1))]
    exact ih

/-- Directories that were made one after the other are there, with those that were there before. The
induction is on the directories, from the one nearest to the root. -/
theorem of_makeDirectories {ks : List Nat} (h : ks.foldlM (makeDirectory p) d = .ok d') :
    d'.current = d.current ∧ (∀ k ∈ ks, d'.isDirectory (p.take (k + 1)) = true) ∧
      ∀ q, d.isDirectory q = true → d'.isDirectory q = true := by
  induction ks generalizing d with
  | nil =>
    cases h
    exact ⟨rfl, fun k hk => absurd hk List.not_mem_nil, fun q hq => hq⟩
  | cons k ks ih =>
    rw [List.foldlM_cons] at h
    obtain ⟨d₁, hmake, hrest⟩ := bind_eq_ok.1 h
    obtain ⟨hcurrent₁, hmade₁, hkept₁⟩ := of_makeDirectory hmake
    obtain ⟨hcurrent, hmade, hkept⟩ := ih hrest
    refine ⟨hcurrent.trans hcurrent₁, fun j hj => ?_, fun q hq => hkept q (hkept₁ q hq)⟩
    rcases List.mem_cons.1 hj with rfl | hj
    · exact hkept _ hmade₁
    · exact hmade j hj

/-- Once the directories of a path were made, the disk leads to it, with those directories that were
there before. -/
theorem of_createDirectories (h : d.createDirectories p = .ok d') :
    d'.current = d.current ∧ d'.Leads p ∧
      ∀ q, d.isDirectory q = true → d'.isDirectory q = true := by
  obtain ⟨hcurrent, hmade, hkept⟩ := of_makeDirectories h
  refine ⟨hcurrent, fun k => ?_, hkept⟩
  by_cases hk : p.length ≤ k
  · -- the whole path goes as far as the last directory that was made
    rw [List.take_of_length_le hk]
    cases p with
    | nil => rfl
    | cons part parts =>
      have hlast := hmade parts.length (List.mem_range.2 (Nat.lt_succ_self _))
      have hwhole : (part :: parts).take (parts.length + 1) = part :: parts :=
        List.take_of_length_le (Nat.le_refl _)
      rwa [hwhole] at hlast
  · cases k with
    | zero => rfl
    | succ k => exact hmade k (List.mem_range.2 (by omega))

/-- Below directories that are there, and with names that are short enough, a node is looked for
where it would be: `find` fails only if there is none. -/
theorem find_eq (habove : ∀ k < p.length, d.isDirectory (p.take k) = true)
    (hshort : p.any (255 < ·.utf8ByteSize) = false) :
    d.find p = match d.node? p with
      | some n => .ok n
      | none => .error .notFound := by
  have hnone : (List.range p.length).find? (fun k => !d.isDirectory (p.take k)) = none := by
    refine List.find?_eq_none.2 fun k hk => ?_
    rw [habove k (List.mem_range.1 hk)]
    exact Bool.false_ne_true
  rw [find, checkParent, if_neg (Bool.eq_false_iff.1 hshort), hnone]
  rfl

/-- No node is looked for under a name that is too long, whatever is there. -/
theorem find_of_long (hlong : p.any (255 < ·.utf8ByteSize) = true) :
    d.find p = .error .nameTooLong := by
  rw [find, checkParent, if_pos hlong]
  rfl

/-- Where the directories of a directory are there, a node inside it is found under its
short name. -/
theorem Leads.find_eq_ok (h : d.Leads p) {name : String}
    (hshort : ∀ part ∈ p ++ [name], part.utf8ByteSize ≤ 255) (hn : d.node? (p ++ [name]) = some n) :
    d.find (p ++ [name]) = .ok n := by
  rw [find_eq, hn]
  · intro k hk
    rw [List.length_append, List.length_singleton] at hk
    rw [List.take_append_of_le_length (Nat.le_of_lt_succ hk)]
    exact h k
  · rw [List.any_eq_false]
    exact fun part hpart => by simpa using hshort part hpart

/-- A file that is moved to where it is stays there, and moving it does not fail. -/
theorem rename_self {contents : Bytes} {mode : Nat} (h : d.find p = .ok (.file contents mode)) :
    ∃ d', d.rename p p = .ok d' := by
  have hdirectory : d.isDirectory p = false := by
    rw [isDirectory, node?_of_find h]
    rfl
  have hfind := h
  rw [find] at hfind
  obtain ⟨_, hparent, -⟩ := bind_eq_ok.1 hfind
  refine ⟨(d.remove p).put p (.file contents mode), ?_⟩
  rw [rename, h, hparent, hdirectory]
  rfl

/-! ## Names -/

/-- No name on the disk is longer than 255 bytes, as a file system demands. -/
def ShortNames (d : Disk) : Prop := ∀ e ∈ d.nodes, ∀ part ∈ e.1, part.utf8ByteSize ≤ 255

/-- A node that is there has a path of short names. -/
theorem ShortNames.of_node? (h : d.ShortNames) (hn : d.node? p = some n) :
    ∀ part ∈ p, part.utf8ByteSize ≤ 255 := by
  cases p with
  | nil => exact fun part hpart => absurd hpart List.not_mem_nil
  | cons part parts =>
    obtain ⟨front, back, hnodes, -⟩ := List.lookup_eq_some_iff.1 hn
    exact h (part :: parts, n) (hnodes ▸ List.mem_append_right front List.mem_cons_self)

/-- A node can be put at a path of short names, and all names are short still. -/
theorem ShortNames.put (h : d.ShortNames) (hp : ∀ part ∈ p, part.utf8ByteSize ≤ 255) (n : Node) :
    (d.put p n).ShortNames :=
  List.forall_mem_cons.2 ⟨hp, fun e he => h e (List.mem_of_mem_filter he)⟩

/-- Any node can be removed, and all names are short still. -/
theorem ShortNames.remove (h : d.ShortNames) (p : Path) : (d.remove p).ShortNames :=
  fun e he => h e (List.mem_of_mem_filter he)

/-- Any file can be moved, as moving fails under a name that is too long. -/
theorem ShortNames.rename (h : d.ShortNames) (hrename : d.rename source target = .ok d') :
    d'.ShortNames := by
  rw [Disk.rename] at hrename
  obtain ⟨n, _, hrename⟩ := bind_eq_ok.1 hrename
  obtain ⟨_, hparent, hrename⟩ := bind_eq_ok.1 hrename
  split at hrename
  · cases hrename
  · cases hrename
    refine (h.remove source).put ?_ n
    -- the directory of the target would not have been found
    rw [checkParent] at hparent
    split at hparent
    · cases hparent
    · next hany => simpa using hany

/-- A disk **widens** to one that has its files, beside them nothing but more directories, and short
names if its own were short. -/
structure Widens (d d' : Disk) : Prop where
  bytes : ∀ p, (d'.node? p).bind Node.bytes? = (d.node? p).bind Node.bytes?
  others : ∀ p n, d'.node? p = some n → n = .directory ∨ d.node? p = some n
  short : d.ShortNames → d'.ShortNames

/-- `d.Widens d`: no directory need be added. -/
theorem Widens.refl (d : Disk) : d.Widens d := ⟨fun _ => rfl, fun _ _ => .inr, id⟩

/-- Directories may be added in several steps: what widens twice widens. -/
theorem Widens.trans {d'' : Disk} (h : d.Widens d') (h' : d'.Widens d'') : d.Widens d'' :=
  ⟨fun p => (h'.bytes p).trans (h.bytes p),
    fun p n hn => (h'.others p n hn).elim .inl (h.others p n), h'.short ∘ h.short⟩

/-- A directory that is made takes the place of no file, so the disk widens. -/
theorem widens_makeDirectory {k : Nat} (h : makeDirectory p d k = .ok d') : d.Widens d' := by
  rw [makeDirectory] at h
  split at h
  · next hnone =>
    split at h
    · cases h
    · next hany =>
      cases h
      have hroot : p.take (k + 1) ≠ [] := fun hnil => by
        rw [hnil] at hnone
        cases hnone
      -- at the path itself there was nothing, and elsewhere nothing changes
      refine ⟨fun q => ?_, fun q n hn => ?_, fun hshort => hshort.put (by simpa using hany) _⟩
      · by_cases hq : q = p.take (k + 1)
        · rw [hq, node?_put d hroot, hnone]
          rfl
        · rw [node?_put_of_ne d _ hq]
      · by_cases hq : q = p.take (k + 1)
        · rw [hq, node?_put d hroot] at hn
          exact .inl (Option.some.inj hn).symm
        · rw [node?_put_of_ne d _ hq] at hn
          exact .inr hn
  · cases h
    exact .refl d
  · split at h <;> cases h

/-- Nor do several directories that are made one after the other. -/
theorem widens_createDirectories (h : d.createDirectories p = .ok d') : d.Widens d' := by
  rw [createDirectories] at h
  generalize List.range p.length = ks at h
  induction ks generalizing d with
  | nil =>
    cases h
    exact .refl _
  | cons k ks ih =>
    rw [List.foldlM_cons] at h
    obtain ⟨d₁, hmake, hrest⟩ := bind_eq_ok.1 h
    exact (widens_makeDirectory hmake).trans (ih hrest)

/-! ## Paths as text -/

/-- The parts of a path as text, which stand between its slashes. -/
def parts (path : List Char) : List String := (path.splitOn '/').map String.ofList

/-- A path leads on from where the path before it led: `parts (front ++ '/' :: back) = parts front
++ parts back`. -/
theorem parts_append (front back : List Char) :
    parts (front ++ '/' :: back) = parts front ++ parts back := by
  rw [parts, List.splitOn_append_cons_self, List.map_append, parts, parts]

/-- A name, which has no slash, is one part. -/
theorem parts_name {name : List Char} (h : '/' ∉ name) : parts name = [String.ofList name] := by
  rw [parts, List.splitOn_eq_singleton h]
  rfl

/-- Slashes at the end lead nowhere else, as an empty part leads to where it stands. -/
theorem foldl_parts_dropSlashes (reversed : Path) (path : List Char) :
    (parts (dropSlashes path)).foldl stepInto reversed = (parts path).foldl stepInto reversed := by
  induction path using List.reverseRecOn with
  | nil => rfl
  | append_singleton path c ih =>
    rw [dropSlashes, List.reverse_concat, List.dropWhile_cons]
    by_cases hc : c = '/'
    · subst hc
      rw [if_pos (beq_self_eq_true '/')]
      refine ih.trans ?_
      rw [parts_append, List.foldl_append]
      rfl
    · rw [if_neg (by simpa using hc), List.reverse_cons, List.reverse_reverse]

/-- Without slashes at its end, a path has the same beginning, if anything is left of it. -/
theorem head?_dropSlashes {path : List Char} (h : dropSlashes path ≠ []) :
    (dropSlashes path).head? = path.head? := by
  obtain ⟨slashes, hpath⟩ : dropSlashes path <+: path := List.rdropWhile_prefix (· == '/') path
  rw [← congrArg List.head? hpath, List.head?_append_of_ne_nil _ h]

/-- A path of slashes only begins at the root, unless it is empty. -/
theorem head?_of_dropSlashes_eq_nil {path : List Char} (h : dropSlashes path = []) :
    path = [] ∨ path.head? = some '/' := by
  have hall : ∀ c ∈ path, c = '/' := fun c hc =>
    beq_iff_eq.1 (List.rdropWhile_eq_nil_iff.1 h c hc)
  cases path with
  | nil => exact .inl rfl
  | cons c cs => exact .inr (congrArg some (hall c List.mem_cons_self))

/-- A path that does not end with a slash keeps all of its text: `dropSlashes path = path`. -/
theorem dropSlashes_of_getLast? {path : List Char} (h : path.getLast? ≠ some '/') :
    dropSlashes path = path := by
  rcases List.eq_nil_or_concat' path with rfl | ⟨front, c, rfl⟩
  · rfl
  · rw [List.getLast?_concat] at h
    have hc : ¬(c == '/') = true := fun hc => h (congrArg some (beq_iff_eq.1 hc))
    rw [dropSlashes, List.reverse_concat, List.dropWhile_cons, if_neg hc, List.reverse_cons,
      List.reverse_reverse]

/-- The directory of a file: where the directory part of its path leads, or the current directory if
it has none. -/
def directoryOf (d : Disk) (path : String) : Path :=
  if parentText path = "" then d.current else d.resolve (parentText path)

/-- A path that does not end with a slash leads to one part of its directory: one step further from
where its directory part leads, with the text behind the last slash. -/
theorem exists_resolve_eq (d : Disk) {path : String} (hend : path.toList.getLast? ≠ some '/') :
    ∃ name, d.resolve path = (stepInto (d.directoryOf path).reverse name).reverse := by
  rw [directoryOf, parentText, dropSlashes_of_getLast? hend]
  have hresolve : ∀ path : String, d.resolve path = ((parts path.toList).foldl stepInto
      (if path.toList.head? = some '/' then [] else d.current).reverse).reverse := fun _ => rfl
  -- without any slash the path is a name in the current directory
  cases hcut : Text.cutLast '/' path.toList with
  | none =>
    have hslash := Text.not_mem_of_cutLast_eq_none hcut
    have hhead : path.toList.head? ≠ some '/' := fun hhead =>
      hslash (List.mem_of_mem_head? hhead)
    refine ⟨path, ?_⟩
    rw [hresolve, if_neg hhead, parts_name hslash, String.ofList_toList]
    rfl
  | some cut =>
    obtain ⟨parent, name⟩ := cut
    refine ⟨String.ofList name, ?_⟩
    rw [hresolve, Text.eq_of_cutLast hcut, parts_append, parts_name (Text.not_mem_of_cutLast hcut),
      List.foldl_append, ← foldl_parts_dropSlashes]
    by_cases hparent : dropSlashes parent = []
    · -- the directory part is the root
      have hhead : (parent ++ '/' :: name).head? = some '/' := by
        rcases head?_of_dropSlashes_eq_nil hparent with rfl | hhead
        · rfl
        · rw [List.head?_append, hhead]
          rfl
      rw [if_pos hhead]
      simp only [hparent]
      rfl
    · have hne : parent ≠ [] := fun hnil => hparent (by rw [hnil]; rfl)
      have htext' : String.ofList (dropSlashes parent) ≠ "" := fun h =>
        hparent (String.ofList_injective (h.trans String.ofList_nil.symm))
      simp only [List.isEmpty_iff, if_neg hparent, if_neg htext', hresolve, String.toList_ofList,
        head?_dropSlashes hparent, List.head?_append_of_ne_nil _ hne, List.reverse_reverse]
      rfl

/-- Where the directories of a directory are there, so are those above any of its parts, be it a
name, `.` or `..`. -/
theorem Leads.isDirectory_above (h : d.Leads p) {name : String} {k : Nat}
    (hk : k < (stepInto p.reverse name).reverse.length) :
    d.isDirectory ((stepInto p.reverse name).reverse.take k) = true := by
  rw [stepInto] at hk ⊢
  split at hk
  -- a part that leads nowhere, one that leads up, and a name
  · next hhere =>
    rw [if_pos hhere, List.reverse_reverse]
    exact h k
  · next hhere =>
    rw [if_neg hhere]
    split at hk
    · next hup =>
      rw [if_pos hup, List.tail_reverse, List.reverse_reverse, List.dropLast_eq_take,
        List.take_take]
      exact h _
    · next hup =>
      rw [List.length_reverse, List.length_cons, List.length_reverse] at hk
      rw [if_neg hup, List.reverse_cons, List.reverse_reverse,
        List.take_append_of_le_length (Nat.le_of_lt_succ hk)]
      exact h k

/-- Where the directory of a file is there, so are all those above the file, and a node can be
looked for there. -/
theorem Leads.isDirectory_above_resolve {path : String} (h : d.Leads (d.directoryOf path))
    (hend : path.toList.getLast? ≠ some '/') {k : Nat} (hk : k < (d.resolve path).length) :
    d.isDirectory ((d.resolve path).take k) = true := by
  obtain ⟨name, hname⟩ := d.exists_resolve_eq hend
  rw [hname] at hk ⊢
  exact h.isDirectory_above hk

end Disk

end WireKeeper
