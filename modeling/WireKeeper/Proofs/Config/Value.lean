import WireKeeper.Proofs.Bytes.Base64
import WireKeeper.Proofs.Config.Section
import WireKeeper.Proofs.Net.Text

/-! # Values of a configuration file are read back

Every kind of value that is written after an equals sign, but for commands and endpoints, is a line
without blanks around it, and it is read as what it was written from. A name is written as a
comment, and the clean ones are read as what they are.

* `rereadName_eq_self_iff`, `rereadName_getD_eq_self_iff`: names;
* `items_joinWith`: the items of a list;
* `readNets_formatAll`, `readAddresses_formatAll`: lists of nets and addresses;
* `readPort_decimal`, `readNet_write`, `readPrivateKey_toBase64`, `readPublicKey_toBase64`. -/

namespace WireKeeper.Config

open Text (isBlank Trimmed trim joinWith decimal)

/-! ## Names -/

/-- The name that is read from the comment which a name is written as: the last line of it, if there
is any. -/
def rereadName (name : Option String) : Option String :=
  (Section.lastRemark none (Section.remarks (name.map String.toList))).map String.ofList

/-- A name of one line is read as what it says as a comment; the empty name is not written, and read
as none. -/
theorem rereadName_some {name : String} (h : '\n' ∉ name.toList) : rereadName (some name) =
    if name = "" then none else some (String.ofList (Line.commentText name.toList)) := by
  have hempty : name.toList = [] ↔ name = "" := String.toList_eq_nil_iff
  rw [rereadName, Option.map_some, Section.lastRemark_remarks h]
  by_cases hname : name = ""
  · rw [if_pos hname, if_pos (hempty.2 hname), Option.map_none]
  · rw [if_neg hname, if_neg fun h => hname (hempty.1 h), Option.map_some]

/-- The text of a clean name, and no other line, is left as it is in a comment. -/
theorem ofList_commentText_eq_self_iff {name : String} (h : '\n' ∉ name.toList) :
    String.ofList (Line.commentText name.toList) = name ↔ Clean name.toList := by
  rw [← Line.commentText_eq_self_iff h, ← String.toList_inj, String.toList_ofList]

/-- Exactly the clean names are read as what they are, and no name as no name; the empty one is
lost. -/
theorem rereadName_eq_self_iff {name : Option String} (h : ∀ n ∈ name, '\n' ∉ n.toList) :
    rereadName name = name ↔ ∀ n ∈ name, n ≠ "" ∧ Clean n.toList := by
  cases name with
  | none => simp [rereadName, Section.lastRemark, Section.remarks]
  | some n =>
    have hfeed : '\n' ∉ n.toList := h n rfl
    rw [rereadName_some hfeed]
    by_cases hn : n = ""
    · simp [hn]
    · simp [hn, ofList_commentText_eq_self_iff hfeed]

/-- Exactly the clean names, and the empty one, are read as what they are where a name is always
there. -/
theorem rereadName_getD_eq_self_iff {name : String} (h : '\n' ∉ name.toList) :
    (rereadName (some name)).getD "" = name ↔ name = "" ∨ Clean name.toList := by
  rw [rereadName_some h]
  by_cases hn : name = ""
  · simp [hn]
  · simp [hn, ofList_commentText_eq_self_iff h]

/-! ## What is written after an equals sign -/

/-- A text that is its own line and stands for itself as a value: it is trimmed and has no line
feed. -/
def IsValue (value : List Char) : Prop := Trimmed value ∧ '\n' ∉ value

/-- A text without blanks is a value, as a line feed is a blank. -/
theorem isValue_of_forall {value : List Char} (h : ∀ c ∈ value, isBlank c = false) :
    IsValue value :=
  ⟨Text.trimmed_of_forall h, fun hfeed => absurd (h _ hfeed) (by decide)⟩

/-- A numeral is a value, as it has digits only. -/
theorem isValue_decimal (n : Nat) : IsValue (decimal n) :=
  isValue_of_forall fun _ hc =>
    (Text.of_isSome_digitValue? (Text.isSome_digitValue?_of_mem_decimal hc)).1

/-- A net is a value, as it is written without blanks. -/
theorem isValue_net (net : Net) : IsValue net.write :=
  isValue_of_forall fun _ hc => (Net.of_mem_write hc).1

/-- A key is a value, as it is written without blanks. -/
theorem isValue_key (key : KeyBytes) : IsValue key.toBase64.toList :=
  ⟨key.trimmed_toBase64, key.feed_not_mem_toBase64⟩

/-- A list is a value when its items have no blanks, as they are joined by commas. -/
theorem isValue_joinWith {ps : List (List Char)} (h : ∀ p ∈ ps, ∀ c ∈ p, isBlank c = false) :
    IsValue (joinWith [','] ps) := by
  refine isValue_of_forall fun c hc => ?_
  rcases Text.mem_joinWith hc with hcomma | ⟨p, hp, hcp⟩
  · rw [List.mem_singleton.1 hcomma]
    decide
  · exact h p hp c hcp

/-- A list of nets is a value, also the empty one. -/
theorem isValue_nets (nets : List Net) : IsValue (Net.formatAll nets ",").toList := by
  rw [Net.formatAll, String.toList_ofList]
  refine isValue_joinWith fun p hp c hc => ?_
  obtain ⟨net, -, rfl⟩ := List.mem_map.1 hp
  exact (Net.of_mem_write hc).1

/-- A list of addresses is a value, also the empty one. -/
theorem isValue_addresses (addresses : List Address) :
    IsValue (Address.formatAll addresses ",").toList := by
  rw [Address.formatAll, String.toList_ofList]
  refine isValue_joinWith fun p hp c hc => ?_
  obtain ⟨a, -, rfl⟩ := List.mem_map.1 hp
  exact (Address.isSign_of_mem_write hc).spec.1

namespace Section

/-- The items of a list, none of which is empty or has blanks or a comma, are read from the list as
they are. -/
theorem items_joinWith {ps : List (List Char)}
    (h : ∀ p ∈ ps, p ≠ [] ∧ ∀ c ∈ p, isBlank c = false ∧ c ≠ ',') :
    items (joinWith [','] ps) = ps.map String.ofList := by
  cases ps with
  | nil => rfl
  | cons q qs =>
    have hsplit : (joinWith [','] (q :: qs)).splitOn ',' = q :: qs :=
      Text.splitOn_joinWith (fun p hp hcomma => ((h p hp).2 _ hcomma).2 rfl)
        (List.cons_ne_nil q qs)
    have htrim : (q :: qs).map trim = q :: qs := by
      have hsame : (q :: qs).map trim = (q :: qs).map id :=
        List.map_congr_left fun p hp =>
          (Text.trimmed_of_forall fun c hc => ((h p hp).2 c hc).1).trim_eq
      rw [hsame, List.map_id]
    have hfilter : (q :: qs).filter (fun p => !p.isEmpty) = q :: qs := by
      refine List.filter_eq_self.2 fun p hp => ?_
      simp [(h p hp).1]
    rw [items, hsplit, htrim, hfilter]

/-- A numeral below 65536 is read as a port: `readPort key (decimal port.toNat) = .ok port`. -/
theorem readPort_decimal (key : String) (port : UInt16) :
    readPort key (decimal port.toNat) = .ok port := by
  rw [readPort, Text.decimal?_decimal port.toNat_lt]
  simp

/-- A net is read from its text: `readNet net.write = .ok net`. -/
theorem readNet_write (net : Net) : readNet net.write = .ok net := by
  rw [readNet, Net.parse_write]
  rfl

/-- Nets are read from their list as they are, in their order; from the empty list none. -/
theorem readNets_formatAll (nets : List Net) :
    readNets (Net.formatAll nets ",").toList = .ok nets := by
  have hitems : items (Net.formatAll nets ",").toList =
      nets.map fun net => String.ofList net.write := by
    rw [Net.formatAll, String.toList_ofList, show ",".toList = [','] from rfl, items_joinWith,
      List.map_map]
    · rfl
    · intro p hp
      obtain ⟨net, -, rfl⟩ := List.mem_map.1 hp
      refine ⟨by simp [Net.write], fun c hc => ?_⟩
      exact ⟨(Net.of_mem_write hc).1, (Net.of_mem_write hc).2.1⟩
  rw [readNets, hitems, Net.parseAll, mapM_map_pure Net.parse_write, List.map_id']
  rfl

/-- No address is written as nothing, so none is lost in a list. -/
theorem write_ne_nil (a : Address) : a.write ≠ [] := by
  intro hnil
  have hread := a.read?_write
  rw [hnil] at hread
  cases hread

/-- Addresses are read from their list as they are, in their order; from the empty list none. -/
theorem readAddresses_formatAll (addresses : List Address) :
    readAddresses (Address.formatAll addresses ",").toList = .ok addresses := by
  have hitems : items (Address.formatAll addresses ",").toList =
      addresses.map fun a => String.ofList a.write := by
    rw [Address.formatAll, String.toList_ofList, show ",".toList = [','] from rfl, items_joinWith,
      List.map_map]
    · rfl
    · intro p hp
      obtain ⟨a, -, rfl⟩ := List.mem_map.1 hp
      refine ⟨write_ne_nil a, fun c hc => ?_⟩
      exact ⟨(Address.isSign_of_mem_write hc).spec.1, (Address.isSign_of_mem_write hc).spec.2.1⟩
  rw [readAddresses, hitems, Address.parseAll, mapM_map_pure Address.parse_write, List.map_id']
  rfl

/-- A private key is read from its text: `readPrivateKey key.toBase64.toList = .ok key`. -/
theorem readPrivateKey_toBase64 (key : PrivateKey) :
    readPrivateKey key.toBase64.toList = .ok key := by
  rw [readPrivateKey, String.ofList_toList, PrivateKey.parse_toBase64]
  rfl

/-- A public key is read from its text: `readPublicKey key.toBase64.toList = .ok key`. -/
theorem readPublicKey_toBase64 (key : PublicKey) :
    readPublicKey key.toBase64.toList = .ok key := by
  rw [readPublicKey, String.ofList_toList, PublicKey.parse_toBase64]
  rfl

/-! ## Values of a key -/

variable {s : Section} {key : String}

/-- The value of a key that stands once is the one that is asked for. -/
theorem require_of_all {title : String} {value : List Char} (h : s.all key = [value]) :
    s.require title key = .ok value := by
  have hget : s.get? key = some value := by simp [get?, h]
  rw [require, hget]

/-- A port that stands at most once is read, or its absence is. -/
theorem readPort?_of_all {port : Option UInt16}
    (h : s.all key = port.toList.map fun p => decimal p.toNat) : s.readPort? key = .ok port := by
  cases port with
  | none =>
    have hget : s.get? key = none := by simp [get?, h]
    rw [readPort?, hget]
  | some p =>
    have hget : s.get? key = some (decimal p.toNat) := by simp [get?, h]
    rw [readPort?, hget]
    show (readPort key (decimal p.toNat)).map some = _
    rw [readPort_decimal]
    rfl

/-- Values are reread as they are, where a list of them stands under one key. -/
theorem all_reread_of_isValue {values : List (List Char)} (h : s.all key = values)
    (hvalues : ∀ value ∈ values, IsValue value) : s.reread.all key = values := by
  have hsame : values.map trim = values.map id :=
    List.map_congr_left fun value hvalue => (hvalues value hvalue).1.trim_eq
  rw [all_reread, h, hsame, List.map_id]

end Section

end WireKeeper.Config
