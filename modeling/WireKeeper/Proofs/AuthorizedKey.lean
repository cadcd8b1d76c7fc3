import WireKeeper.AuthorizedKey
import WireKeeper.Proofs.Bytes.Base64
import WireKeeper.Proofs.Text.Words

/-! # Authorized keys are read back

What a line says is in its words alone. From the one that names the key type on, these are the words
of the key: the algorithm, the one text of the blob, and the comment. So a key is read from the line
that is written for it, whatever stood in front of it and between its words when it was read first.

What stands in front is skipped up to the first word that begins like a key type. Blanks inside the
quotes of options part words like all others, so that a quoted word may be taken for the key type.

* `parseLine_eq`, `ofFields_eq_ok`: a line by its words, and the words that a key is read from;
* `words_line`: the words of the line that is written for a key;
* `reparse_line`: reading, writing and reading again;
* `IsOptions`, `parse_behind_options`: options in front of a line;
* `not_parse_behind_quoted`: options that make a line mean another key. -/

namespace WireKeeper

namespace AuthorizedKey

open Text (words trim isBlank joinWith IsWord)

variable {key : AuthorizedKey} {ws comment : List (List Char)}

/-! ## Words -/

/-- A blob that names an algorithm is read as a key: `ofBlob blob comment` is `key` exactly for the
blob and the comment of `key`, and so for one pair only. -/
theorem ofBlob_eq_ok {blob : Bytes} {comment : String} :
    ofBlob blob comment = .ok key ↔ blob = key.blob ∧ comment = key.comment := by
  constructor
  · intro h
    rw [ofBlob] at h
    split at h
    · cases h
      exact ⟨rfl, rfl⟩
    · cases h
  · rintro ⟨rfl, rfl⟩
    rw [ofBlob]
    split
    · next algorithm h => exact congrArg Except.ok (ext_blob rfl rfl)
    · next h => cases h.symm.trans key.blobAlgorithm_eq

/-- A key is read from its own words, with the words of its comment behind them: the algorithm, the
one text of the blob, and any words that are put together to the comment with single spaces. -/
theorem ofFields_eq_ok : ofFields ws = .ok key ↔
    ∃ comment, joinWith [' '] comment = key.comment.toList ∧
      ws = key.algorithm.toList :: (Base64.encode key.blob).toList :: comment := by
  constructor
  · intro h
    -- the three faults of a line in the order in which they are looked for: a blob that is no
    -- base64, a blob without a name, and a name that is not the declared one
    match ws, h with
    | declared :: data :: comment, h =>
      rw [ofFields] at h
      split at h
      · cases h
      · next blob hblob =>
        split at h
        · cases h
        · next read hread =>
          split at h
          · next hdeclared =>
            cases h
            obtain ⟨rfl, hcomment⟩ := ofBlob_eq_ok.1 hread
            refine ⟨comment, ?_, ?_⟩
            · rw [← hcomment, String.toList_ofList]
            · rw [hdeclared, Base64.decode_encode_eq_ok.1 hblob]
          · cases h
  · rintro ⟨comment, hcomment, rfl⟩
    rw [ofFields, Base64.decode_encode_eq_ok.2 rfl, hcomment, String.ofList_toList]
    simp only [ofBlob_eq_ok.2 ⟨rfl, rfl⟩, if_pos]

/-- The key that the words of a line mean. A remark means none; of all others the words in front of
the first that begins like a key type are left out. -/
def ofWords (ws : List (List Char)) : Except AuthorizedKeyError AuthorizedKey :=
  if ws.head?.bind List.head? = some '#' then .error .empty
  else ofFields (ws.dropWhile fun word => !isKeyType word)

/-- A line is read by its words alone: `parseLine line = ofWords (words line)`, whatever blanks part
them. -/
theorem parseLine_eq (line : List Char) : parseLine line = ofWords (words line) := by
  rw [parseLine, ofWords, Text.head?_trim]

/-- Words mean a key if they do not begin like a remark and the words from the first key type on are
those of the key, as `ofFields` reads them. -/
theorem ofWords_eq_ok : ofWords ws = .ok key ↔ ws.head?.bind List.head? ≠ some '#' ∧
    ofFields (ws.dropWhile fun word => !isKeyType word) = .ok key := ite_error_eq_ok

/-! ## Key types -/

/-- Every start of a key type is a word that is no remark: it has no blank, and it does not begin
with `#`. -/
theorem of_mem_typeStarts {start : List Char} (h : start ∈ typeStarts) :
    IsWord start ∧ start.head? ≠ some '#' := by
  have hall : ∀ start ∈ typeStarts,
      start ≠ [] ∧ start.all (!isBlank ·) = true ∧ start.head? ≠ some '#' := by
    decide
  obtain ⟨hne, hblank, hhead⟩ := hall start h
  exact ⟨⟨hne, by simpa using hblank⟩, hhead⟩

/-- What names a key type begins as one of them does: `isKeyType w` exactly if one of `typeStarts`
is a prefix of `w`. -/
theorem isKeyType_iff {w : List Char} : isKeyType w = true ↔ ∃ start ∈ typeStarts, start <+: w := by
  simp only [isKeyType, Text.startsWith, List.any_eq_true, List.isPrefixOf_iff_prefix]

/-- What names a key type is no remark, so that a line beginning with one is read and not passed
over. -/
theorem head?_ne_of_isKeyType {w : List Char} (h : isKeyType w = true) : w.head? ≠ some '#' := by
  obtain ⟨start, hstart, rest, rfl⟩ := isKeyType_iff.1 h
  obtain ⟨hword, hhead⟩ := of_mem_typeStarts hstart
  rwa [List.head?_append_of_ne_nil start hword.1]

/-- A line that begins like a key type has it as its first word: `words line = w :: rest` where
`isKeyType w`. -/
theorem exists_words_of_isKeyType {line : List Char} (h : isKeyType line = true) :
    ∃ w rest, words line = w :: rest ∧ isKeyType w = true := by
  obtain ⟨start, hstart, behind, rfl⟩ := isKeyType_iff.1 h
  obtain ⟨rest, hrest⟩ := Text.words_append_of_isWord (of_mem_typeStarts hstart).1 behind
  exact ⟨_, rest, hrest, isKeyType_iff.2 ⟨start, hstart, List.prefix_append _ _⟩⟩

/-- Words that begin with a key type are read from there: nothing is left out of `w :: rest`, and
`ofWords` is `ofFields` on them. -/
theorem ofWords_cons {w : List Char} (h : isKeyType w = true) (rest : List (List Char)) :
    ofWords (w :: rest) = ofFields (w :: rest) := by
  rw [ofWords, List.head?_cons, Option.bind_some, if_neg (head?_ne_of_isKeyType h),
    List.dropWhile_cons_of_neg (by simp [h])]

/-! ## Reading what was written -/

/-- The text of the blob of a key is a word: it has no blank, and it is not empty as no blob is. -/
theorem isWord_encode_blob (key : AuthorizedKey) : IsWord (Base64.encode key.blob).toList := by
  refine ⟨fun hnil => ?_, fun c => Base64.isBlank_of_mem_encode⟩
  -- no text is no blob, which has at least the length of a name
  have hread := Base64.decode_encode_eq_ok.2 hnil.symm
  have hblob : [] = key.blob := Except.ok.inj hread
  have hname := key.blobAlgorithm_eq
  rw [← hblob] at hname
  cases hname

/-- The words of the line that is written for a key: the algorithm, the text of the blob, and the
words `comment` that its comment is put together from. -/
theorem words_line (halgorithm : IsWord key.algorithm.toList) (hcomment : ∀ w ∈ comment, IsWord w)
    (hjoin : joinWith [' '] comment = key.comment.toList) :
    words key.line.toList = key.algorithm.toList :: (Base64.encode key.blob).toList :: comment := by
  have hfields : words (key.algorithm ++ " " ++ Base64.encode key.blob).toList =
      [key.algorithm.toList, (Base64.encode key.blob).toList] := by
    rw [Text.words_spaced, halgorithm.words_eq, key.isWord_encode_blob.words_eq]
    rfl
  have hwords : words key.comment.toList = comment := by
    rw [← hjoin, Text.words_joinWith hcomment]
  -- a key without a comment is written without the blank in front of it
  rw [line]
  split
  · next hempty =>
    rw [String.isEmpty_iff.1 hempty] at hwords
    rw [hfields, ← hwords]
    rfl
  · rw [Text.words_spaced, hfields, hwords]
    rfl

/-- A key that was read from a line has a key type as its algorithm, which is one word, and words
for a comment, put together with single spaces. This is all that writing the key relies on. -/
theorem of_parse {line : String} (h : parse line = .ok key) :
    isKeyType key.algorithm.toList = true ∧ IsWord key.algorithm.toList ∧
      ∃ comment, (∀ w ∈ comment, IsWord w) ∧ joinWith [' '] comment = key.comment.toList := by
  rw [parse, parseLine_eq] at h
  obtain ⟨comment, hjoin, hdrop⟩ := ofFields_eq_ok.1 (ofWords_eq_ok.1 h).2
  have hword : ∀ w ∈ (words line.toList).dropWhile (fun word => !isKeyType word), IsWord w :=
    fun w hw => Text.isWord_of_mem_words ((List.dropWhile_sublist _).subset hw)
  have hhead := List.head?_dropWhile_not (fun word => !isKeyType word) (words line.toList)
  rw [hdrop] at hword hhead
  simp only [List.forall_mem_cons] at hword
  exact ⟨by simpa using hhead, hword.1, comment, hword.2.2, hjoin⟩

/-- **A key that was read from a line is written and read again as the same key**: `parse (toString
key) = .ok key`, and `ofBlob` gives it from its blob and comment as well. So options and odd blanks
are lost in writing, and the key is not. -/
theorem reparse_line {line : String} (h : parse line = .ok key) :
    parse (toString key) = .ok key ∧ ofBlob key.blob key.comment = .ok key := by
  obtain ⟨htype, halgorithm, comment, hcomment, hjoin⟩ := of_parse h
  refine ⟨?_, ofBlob_eq_ok.2 ⟨rfl, rfl⟩⟩
  show parse key.line = .ok key
  rw [parse, parseLine_eq, words_line halgorithm hcomment hjoin, ofWords_cons htype]
  exact ofFields_eq_ok.2 ⟨comment, hjoin, rfl⟩

/-- A line with options, with several kinds of blanks, and with a blob whose name is no UTF-8, so
that it is written with a replacement character. -/
def oddLine : String := "  no-pty\u3000ssh-\uFFFD\u00A0AAAABXNzaC3/\u2003two\u2028 words "

/-- The key of `oddLine` is written as a plain line, without options and with single spaces, and is
read from it again. -/
theorem reparse_oddLine :
    ∃ key, parse oddLine = .ok key ∧ key.line = "ssh-\uFFFD AAAABXNzaC3/ two words" ∧
      parse (toString key) = .ok key ∧ ofBlob key.blob key.comment = .ok key := by
  have hread : (parse oddLine).toOption.map line = some "ssh-\uFFFD AAAABXNzaC3/ two words" := by
    decide +kernel
  obtain ⟨key, hkey, hline⟩ := exists_of_toOption_map hread
  exact ⟨key, hkey, hline, reparse_line hkey⟩

/-! ## Options -/

/-- Whether blanks stand inside quotes only and every quote is closed; `inside` says on which side
of a quote the text begins. A quote behind a backslash neither opens nor closes. -/
def quotesBlanks (inside : Bool) : List Char → Bool
  | [] => !inside
  | '\\' :: '"' :: cs => quotesBlanks inside cs
  | c :: cs =>
    if c = '"' then quotesBlanks (!inside) cs
    else (inside || !isBlank c) && quotesBlanks inside cs

/-- The **options** that can stand in front of a key type: a text that is not empty, that begins
neither like a remark nor like a key type, and that has its blanks inside closed quotes. -/
structure IsOptions (o : List Char) : Prop where
  ne_nil : o ≠ []
  not_remark : o.head? ≠ some '#'
  not_keyType : isKeyType o = false
  quotes : quotesBlanks false o = true

/-- Options do not begin with a blank, as no quote is open there: `(trim o).head? = o.head?`, so
they are no remark when they are trimmed either. -/
theorem IsOptions.head?_trim_eq {o : List Char} (h : IsOptions o) : (trim o).head? = o.head? := by
  have hstart : ∀ c ∈ o.head?, isBlank c = false := by
    intro c hc
    have hquotes := h.quotes
    rw [quotesBlanks.eq_def] at hquotes
    -- what the options begin with: an escaped quote, a quote, or a character that is no blank
    -- outside of quotes
    split at hquotes
    · cases hc
    · cases hc
      rfl
    · next x cs _ =>
      cases hc
      split at hquotes
      · next hquote => rw [hquote]; rfl
      · simpa using (Bool.and_eq_true_iff.1 hquotes).1
  rw [Text.head?_trim_eq, Text.trimStart_eq_self_iff.2 hstart]

/-- With words in front, the words of a key are read as the key if and only if no key type is among
those in front. If there is one, the words from it on are more than the words of the key, and a key
has one list of words only. -/
theorem ofFields_dropWhile_append {front behind : List (List Char)}
    (hwords : ∀ w ∈ front ++ behind, IsWord w) (h : ofFields behind = .ok key)
    (hbegin : behind.dropWhile (fun word => !isKeyType word) = behind) :
    ofFields ((front ++ behind).dropWhile fun word => !isKeyType word) = .ok key ↔
      ∀ w ∈ front, isKeyType w = false := by
  constructor
  · intro hread
    have hnil : front.dropWhile (fun word => !isKeyType word) = [] := by
      by_contra hne
      rw [List.dropWhile_append, List.isEmpty_eq_false_iff.2 hne, if_neg Bool.false_ne_true]
        at hread
      have hsub : front.dropWhile (fun word => !isKeyType word) ++ behind ⊆ front ++ behind :=
        ((List.dropWhile_sublist _).append_right behind).subset
      obtain ⟨comment, hjoin, hbehind⟩ := ofFields_eq_ok.1 h
      obtain ⟨comment', hjoin', hfront⟩ := ofFields_eq_ok.1 hread
      -- two comments that are put together to one text are the same, so nothing stands in front
      have hword : ∀ w ∈ comment, IsWord w := fun w hw =>
        hwords w (List.mem_append_right front (hbehind ▸ by simp [hw]))
      have hword' : ∀ w ∈ comment', IsWord w := fun w hw =>
        hwords w (hsub (hfront ▸ by simp [hw]))
      rw [(Text.joinWith_inj hword' hword).1 (hjoin'.trans hjoin.symm), ← hbehind] at hfront
      exact hne (List.append_left_eq_self.1 hfront)
    simpa using List.dropWhile_eq_nil_iff.1 hnil
  · intro hnone
    rw [List.dropWhile_append_of_pos (by simpa using hnone), hbegin]
    exact h

/-- What stands in front of a line that begins with a key type leaves it its key if and only if it
is no remark and has no word that is taken for the type. Here `o` is any text, options or not. -/
theorem parse_append_iff {line : String} (htype : isKeyType line.toList = true)
    (h : parse line = .ok key) (o : String) :
    parse (o ++ " " ++ line) = .ok key ↔
      (trim o.toList).head? ≠ some '#' ∧ ∀ w ∈ words o.toList, isKeyType w = false := by
  obtain ⟨w, rest, hline, hw⟩ := exists_words_of_isKeyType htype
  rw [parse, parseLine_eq, hline, ofWords_cons hw] at h
  have hwords : ∀ v ∈ words o.toList ++ (w :: rest), IsWord v := by
    rw [← hline]
    exact List.forall_mem_append.2
      ⟨fun v => Text.isWord_of_mem_words, fun v => Text.isWord_of_mem_words⟩
  have hbegin : (w :: rest).dropWhile (fun word => !isKeyType word) = w :: rest :=
    List.dropWhile_cons_of_neg (by simp [hw])
  rw [parse, parseLine_eq, Text.words_spaced, hline, ofWords_eq_ok, Text.head?_trim,
    ofFields_dropWhile_append hwords h hbegin]
  refine and_congr_left fun _ => ?_
  -- the first word of the whole decides whether it is a remark: one of `o`, or the key type if `o`
  -- has none
  cases words o.toList with
  | nil => exact iff_of_true (head?_ne_of_isKeyType hw) nofun
  | cons v vs => exact Iff.rfl

/-- **What stands in front of a line changes its key exactly if it is a remark or has a word that is
taken for the key type.** So options whose quoted words do not begin like a key type leave the line
its key, and all others take it away: for them `parse (o ++ " " ++ line)` is another key or an
error. -/
theorem parse_behind_options {line : String} (htype : isKeyType line.toList = true)
    (h : parse line = .ok key) :
    (∀ o : String, parse (o ++ " " ++ line) = .ok key ↔
      (trim o.toList).head? ≠ some '#' ∧ ∀ w ∈ words o.toList, isKeyType w = false) ∧
    ∀ o : String, IsOptions o.toList →
      (parse (o ++ " " ++ line) = .ok key ↔ ∀ w ∈ words o.toList, isKeyType w = false) := by
  refine ⟨parse_append_iff htype h, fun o ho => ?_⟩
  rw [parse_append_iff htype h o, ho.head?_trim_eq]
  exact and_iff_right ho.not_remark

/-- A line with a key type, a blob and a comment, and without options. -/
def plainLine : String :=
  "ssh-rsa AAAAB3NzaC1yc2EAAAABAw== ops"

/-- Options with blanks and escaped quotes, but without a word that begins like a key type. -/
def greetingOptions : String := "no-pty,command=\"echo \\\"hi there\\\"\""

/-- Quoted blanks alone do no harm: behind `greetingOptions` the plain line keeps its key. -/
theorem parse_behind_greeting :
    IsOptions greetingOptions.toList ∧ isKeyType plainLine.toList = true ∧
      ∃ key, parse plainLine = .ok key ∧ parse (greetingOptions ++ " " ++ plainLine) = .ok key := by
  have hoptions : IsOptions greetingOptions.toList := ⟨by decide, by decide, by decide, by decide⟩
  have htype : isKeyType plainLine.toList = true := by decide
  have hread : (parse plainLine).toOption.map (fun _ => ()) = some () := by decide +kernel
  obtain ⟨key, hkey, -⟩ := exists_of_toOption_map hread
  refine ⟨hoptions, htype, key, hkey, ?_⟩
  exact ((parse_behind_options htype hkey).2 _ hoptions).2 (by decide)

/-- Options whose quoted text names a key, with a key type that stands as a word of its own. -/
def quotingOptions : String :=
  "command=\"echo ssh-rsa AAAAB3NzaC1yc2EAAAABBQ== \""

/-- Such options make the line mean the key that they quote instead of its own: both lines are read,
and the blobs of their keys differ. -/
theorem not_parse_behind_quoted :
    IsOptions quotingOptions.toList ∧ isKeyType plainLine.toList = true ∧
      ∃ key other, parse plainLine = .ok key ∧
        parse (quotingOptions ++ " " ++ plainLine) = .ok other ∧ other.blob ≠ key.blob := by
  have hread : (parse plainLine).toOption.map (fun key =>
      (parse (quotingOptions ++ " " ++ plainLine)).toOption.map fun other =>
        decide (other.blob ≠ key.blob)) = some (some true) := by
    decide +kernel
  obtain ⟨key, hkey, hread⟩ := exists_of_toOption_map hread
  obtain ⟨other, hother, hne⟩ := exists_of_toOption_map hread
  exact ⟨⟨by decide, by decide, by decide, by decide⟩, by decide, key, other, hkey, hother,
    of_decide_eq_true hne⟩

end AuthorizedKey

end WireKeeper
