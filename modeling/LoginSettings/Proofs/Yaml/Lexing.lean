import LoginSettings.Proofs.Json.Spelling
import LoginSettings.Proofs.Yaml.Resolution
import LoginSettings.Proofs.Yaml.Scalars

/-!
# Values as tokens

The lexer reads what is written for a value as the tokens of the value (`valueTokens`). A value is
written behind the sign of an item or of a key, behind a key on the same line, or alone; where it is
a sequence or a mapping with something in it, its parts stand on lines of their own, in a block.

* `reaches_parts` — the parts of a block, one after another
* `reads_of_whole` — values inside others, by induction on the value
* `readAll_render`, `readAll_render_lineFeed` — whole texts
-/

namespace LoginSettings.Yaml

open Cursor Lexer

variable {x : Char} {cs text tail rest : List Char} {line column c n : Nat}
  {read read' : List Token} {blocks outer : List Nat} {allowed : Bool} {v : Value}

/-! ## The tokens of values -/

/-- The token of a text. -/
def textToken (text : List Char) : Token := .scalar (styleOf text = .plain) text

mutual

/-- The tokens of a value. If `placed`, it stands behind a key on the same line, where the items of
a sequence are no block of their own. -/
def valueTokens (placed : Bool) : Value → List Token
  | .null => [.scalar true "null".toList]
  | .bool b => [.scalar true (if b then "true".toList else "false".toList)]
  | .number n => [.scalar true (numberText n)]
  | .string s => [textToken s.toList]
  | .array [] => [.sequenceStart, .sequenceEnd]
  | .array (v :: vs) =>
    if placed then itemTokens (v :: vs)
    else .blockSequenceStart :: itemTokens (v :: vs) ++ [.blockEnd]
  | .object [] => [.mappingStart, .mappingEnd]
  | .object (m :: ms) => .blockMappingStart :: memberTokens (m :: ms) ++ [.blockEnd]

/-- The tokens of items. -/
def itemTokens : List Value → List Token
  | [] => []
  | v :: vs => .blockEntry :: valueTokens false v ++ itemTokens vs

/-- The tokens of members. -/
def memberTokens : List (String × Value) → List Token
  | [] => []
  | (key, v) :: ms =>
    .key :: textToken key.toList :: .value :: valueTokens (isSimpleKey key) v ++ memberTokens ms

end

/-! ## How values start -/

/-- Holds of texts that start a token. -/
def BeginsToken (cs : List Char) : Prop := ∃ x xs, cs = x :: xs ∧ startsGap x = false

theorem BeginsToken.ne_nil (h : BeginsToken cs) : cs ≠ [] := by
  obtain ⟨x, xs, rfl, -⟩ := h
  exact List.cons_ne_nil x xs

theorem BeginsToken.append (h : BeginsToken cs) : BeginsToken (cs ++ rest) := by
  obtain ⟨x, xs, rfl, hx⟩ := h
  exact ⟨x, xs ++ rest, rfl, hx⟩

/-- What begins with a token is the start of one, whatever follows. -/
theorem BeginsToken.startsToken (h : BeginsToken cs) : StartsToken (cs ++ rest) := by
  obtain ⟨x, xs, rfl, hx⟩ := h
  intro d hd
  obtain rfl : x = d := by simpa using hd
  exact hx

/-- Strings begin with a token, in whatever style they are written. -/
theorem beginsToken_scalarText (column : Nat) (text : List Char) :
    BeginsToken (scalarText column text) := by
  unfold scalarText
  cases h : styleOf text with
  | plain =>
    have hplain := (standsPlain_of_styleOf h).1
    obtain ⟨c, cs, rfl, -⟩ := hplain.words.exists_cons
    exact ⟨c, cs, rfl, hplain.startsGap_eq_false⟩
  | single => exact ⟨'\'', _, rfl, rfl⟩
  | double => exact ⟨'"', _, rfl, rfl⟩
  | literal => exact ⟨'|', _, rfl, rfl⟩

theorem beginsToken_of_standsPlain (h : StandsPlain text) : BeginsToken text := by
  obtain ⟨c, cs, rfl, -⟩ := h.words.exists_cons
  exact ⟨c, cs, rfl, h.startsGap_eq_false⟩

/-- Items are written one after another, each on the next line. -/
theorem itemChars_cons (c : Nat) (v w : Value) (vs : List Value) :
    itemChars c (v :: w :: vs) = onNextLine c (itemChars c [v]) (itemChars c (w :: vs)) := by
  simp [itemChars]

/-- Members are written one after another, each on the next line. -/
theorem memberChars_cons (c : Nat) (m p : String × Value) (ms : List (String × Value)) :
    memberChars c (m :: p :: ms) = onNextLine c (memberChars c [m]) (memberChars c (p :: ms)) := by
  simp [memberChars]

theorem beginsToken_itemChars (c : Nat) (v : Value) (vs : List Value) :
    BeginsToken (itemChars c (v :: vs)) := by
  cases vs with
  | nil => exact ⟨'-', _, by rw [itemChars], rfl⟩
  | cons w ws =>
    rw [itemChars_cons, itemChars]
    exact ⟨'-', _, rfl, rfl⟩

theorem beginsToken_memberChars (c : Nat) (m : String × Value) (ms : List (String × Value)) :
    BeginsToken (memberChars c (m :: ms)) := by
  have hone : BeginsToken (memberChars c [m]) := by
    obtain ⟨key, v⟩ := m
    simp only [memberChars]
    split
    · exact (beginsToken_scalarText _ _).append
    · exact ⟨'?', _, rfl, rfl⟩
  cases ms with
  | nil => exact hone
  | cons p ms =>
    rw [memberChars_cons, onNextLine, List.append_assoc]
    exact hone.append

/-! ## Parts of a block -/

/-- Parts on lines of their own are read one after another, if each of them is read. The first one
opens the block, unless it is open. -/
theorem reaches_parts {α : Type} {write : List α → List Char} {tokens : List α → List Token}
    {start : Token} {parts : List α}
    (hwrite : ∀ a b as, write (a :: b :: as) = onNextLine c (write [a]) (write (b :: as)))
    (hbegins : ∀ a as, BeginsToken (write (a :: as)))
    (htokens : ∀ a as, tokens (a :: as) = tokens [a] ++ tokens as)
    (hpart : ∀ a ∈ parts, ∀ {blocks read read' line n rest tail},
      BlockAt start c blocks read (c :: outer) read' → Follows (c :: outer) n rest →
      Tail n (write [a]) rest tail →
      (between ⟨write [a] ++ tail, line, c⟩ read blocks true).Reaches rest n
        ((tokens [a]).reverse ++ read') (c :: outer))
    (hnil : parts ≠ []) (hblock : BlockAt start c blocks read (c :: outer) read')
    (hfollows : Follows (c :: outer) n rest) (htail : Tail n (write parts) rest tail) :
    (between ⟨write parts ++ tail, line, c⟩ read blocks true).Reaches rest n
      ((tokens parts).reverse ++ read') (c :: outer) := by
  -- The first part may open the block; all others find it open.
  induction parts generalizing blocks read read' line with
  | nil => exact absurd rfl hnil
  | cons a as ih =>
    obtain ⟨ha, has⟩ := List.forall_mem_cons.1 hpart
    cases as with
    | nil => exact ha hblock hfollows htail
    | cons b as =>
      have hmore := hbegins b as
      rw [hwrite, onNextLine] at htail
      have hfirst : (between ⟨write [a] ++ (nextLine (write [a]) c ++ (write (b :: as) ++ tail)),
          line, c⟩ read blocks true).Reaches (write (b :: as) ++ tail) c
            ((tokens [a]).reverse ++ read') (c :: outer) :=
        ha hblock ⟨hmore.startsToken, Nat.le_refl c, by simp⟩ .lineEnd
      rw [hwrite, onNextLine, htokens a (b :: as), List.reverse_append, List.append_assoc,
        List.append_assoc, List.append_assoc]
      exact hfirst.andThen fun line =>
        ih has (by simp) .inside (htail.of_append hmore.ne_nil)

/-! ## Values without parts -/

/-- Holds of values that are written without a block: all but sequences and mappings with something
in them. -/
def isFlat : Value → Bool
  | .array (_ :: _) => false
  | .object (_ :: _) => false
  | _ => true

/-- A value without parts stands on the line of its key. -/
theorem memberValueChars_of_isFlat (h : isFlat v = true) (c : Nat) :
    memberValueChars c v = ' ' :: inlineChars (c + 2) v := by
  cases v with
  | array items => cases items with
    | nil => rfl
    | cons w ws => cases h
  | object members => cases members with
    | nil => rfl
    | cons m ms => cases h
  | _ => rfl

/-- A value without parts has the same tokens at every place. -/
theorem valueTokens_of_isFlat (h : isFlat v = true) (placed : Bool) :
    valueTokens placed v = valueTokens false v := by
  cases v with
  | array items => cases items with
    | nil => rfl
    | cons w ws => cases h
  | object members => cases members with
    | nil => rfl
    | cons m ms => cases h
  | _ => rfl

/-- **A value without parts is read at the end of a line**, inside a block or alone. -/
theorem reaches_flat (h : isFlat v = true) (hwhole : Json.Whole v)
    (hblocks : ∀ block ∈ blocks.head?, block ≤ column)
    (hallowed : allowed = true → blocks.head? ≠ some column) (hfollows : Follows blocks n rest)
    (htail : Tail n (inlineChars (blocks.head?.getD 0 + 2) v) rest tail) :
    (between ⟨inlineChars (blocks.head?.getD 0 + 2) v ++ tail, line, column⟩ read blocks
      allowed).Reaches rest n ((valueTokens false v).reverse ++ read) blocks := by
  cases hwhole with
  | null => exact reaches_plain standsPlain_null hblocks hallowed hfollows htail
  | bool b => exact reaches_plain (standsPlain_bool b) hblocks hallowed hfollows htail
  | number => exact reaches_plain (standsPlain_intDigits _) hblocks hallowed hfollows htail
  | string s => exact reaches_scalarText s.toList hblocks hallowed hfollows htail
  | @array items _ =>
    cases items with
    | nil =>
      rw [htail.eq_newLine rfl rfl]
      exact (leadsTo_brackets .sequence hblocks hallowed hfollows.starts n).reaches
    | cons v vs => cases h
  | @object members _ =>
    cases members with
    | nil =>
      rw [htail.eq_newLine rfl rfl]
      exact (leadsTo_brackets .mapping hblocks hallowed hfollows.starts n).reaches
    | cons m ms => cases h

/-! ## Values inside others -/

/-- Holds of values that are read behind the sign of an item or a key. -/
def ReadsValue (v : Value) : Prop :=
  ∀ {c outer read line n rest tail}, Follows (c :: outer) n rest →
    Tail n (inlineChars (c + 2) v) rest tail →
    (between ⟨inlineChars (c + 2) v ++ tail, line, c + 2⟩ read (c :: outer) true).Reaches rest n
      ((valueTokens false v).reverse ++ read) (c :: outer)

/-- Holds of values that are read behind a key on the same line. -/
def ReadsMember (v : Value) : Prop :=
  ∀ {c outer read line column n rest tail}, c ≤ column → Follows (c :: outer) n rest →
    Tail n (memberValueChars c v) rest tail →
    (between ⟨memberValueChars c v ++ tail, line, column⟩ read (c :: outer) false).Reaches rest n
      ((valueTokens true v).reverse ++ read) (c :: outer)

/-- What is written for a value begins with a token. -/
theorem beginsToken_inlineChars (hwhole : Json.Whole v) (column : Nat) :
    BeginsToken (inlineChars column v) := by
  cases hwhole with
  | null => exact beginsToken_of_standsPlain standsPlain_null
  | bool b => exact beginsToken_of_standsPlain (standsPlain_bool b)
  | number => exact beginsToken_of_standsPlain (standsPlain_intDigits _)
  | string s => exact beginsToken_scalarText column s.toList
  | @array items _ =>
    cases items with
    | nil => exact ⟨'[', [']'], rfl, rfl⟩
    | cons v vs => exact beginsToken_itemChars column v vs
  | @object members _ =>
    cases members with
    | nil => exact ⟨'{', ['}'], rfl, rfl⟩
    | cons m ms => exact beginsToken_memberChars column m ms

/-- An item is read with its sign. -/
theorem reaches_item (hwhole : Json.Whole v) (h : ReadsValue v)
    (hblock : BlockAt .blockSequenceStart c blocks read (c :: outer) read')
    (hfollows : Follows (c :: outer) n rest) (htail : Tail n (itemChars c [v]) rest tail) :
    (between ⟨itemChars c [v] ++ tail, line, c⟩ read blocks true).Reaches rest n
      ((itemTokens [v]).reverse ++ read') (c :: outer) := by
  have hbegins := beginsToken_inlineChars hwhole (c + 2)
  have htokens : (itemTokens [v]).reverse ++ read'
      = (valueTokens false v).reverse ++ .blockEntry :: read' := by
    simp [itemTokens]
  rw [itemChars] at htail ⊢
  rw [htokens]
  exact (leadsTo_entry hblock hbegins.startsToken).andThen
    (h hfollows ((htail.of_cons (by simp)).of_cons hbegins.ne_nil))

/-- The value of a member stands behind a blank or on a line of its own. -/
theorem exists_memberValueChars (c : Nat) (v : Value) :
    ∃ x lead column, memberValueChars c v = x :: (lead ++ inlineChars column v) ∧
      (isBlank x || isBreak x) = true := by
  by_cases hflat : isFlat v = true
  · exact ⟨' ', [], c + 2, memberValueChars_of_isFlat hflat c, rfl⟩
  · cases v with
    | array items => cases items with
      | nil => exact absurd rfl hflat
      | cons w ws => exact ⟨'\n', indentation c, c, rfl, rfl⟩
    | object members => cases members with
      | nil => exact absurd rfl hflat
      | cons m ms => exact ⟨'\n', indentation (c + 2), c + 2, rfl, rfl⟩
    | _ => exact absurd rfl hflat

theorem reverse_memberTokens (key : String) (v : Value) (read : List Token) :
    (memberTokens [(key, v)]).reverse ++ read = (valueTokens (isSimpleKey key) v).reverse
      ++ .value :: textToken key.toList :: .key :: read := by
  simp [memberTokens]

/-- A member whose key stands on one line with its colon. -/
theorem reaches_member_of_isSimpleKey {key : String} (hkey : isSimpleKey key = true)
    (hmember : ReadsMember v) (hblock : BlockAt .blockMappingStart c blocks read (c :: outer) read')
    (hfollows : Follows (c :: outer) n rest) (htail : Tail n (memberChars c [(key, v)]) rest tail) :
    (between ⟨memberChars c [(key, v)] ++ tail, line, c⟩ read blocks true).Reaches rest n
      ((memberTokens [(key, v)]).reverse ++ read') (c :: outer) := by
  obtain ⟨x, lead, inner, hxs, hx⟩ := exists_memberValueChars c v
  have hends : endsWord (memberValueChars c v ++ tail) = true := by
    rw [hxs]
    exact hx
  obtain ⟨column', hcolumn, hleads⟩ := leadsTo_simpleKey hkey hblock (Nat.succ_ne_zero (c + 1))
    hends line
  simp only [memberChars, if_pos hkey] at htail ⊢
  rw [reverse_memberTokens, hkey, List.append_assoc]
  exact hleads.andThen
    (hmember hcolumn hfollows ((htail.of_append (by simp)).of_cons (by simp [hxs])))

/-- A member whose key stands behind a question mark, and its colon on a line of its own. -/
theorem reaches_member_of_not_isSimpleKey {key : String} (hkey : ¬isSimpleKey key = true)
    (hwhole : Json.Whole v) (hvalue : ReadsValue v)
    (hblock : BlockAt .blockMappingStart c blocks read (c :: outer) read')
    (hfollows : Follows (c :: outer) n rest) (htail : Tail n (memberChars c [(key, v)]) rest tail) :
    (between ⟨memberChars c [(key, v)] ++ tail, line, c⟩ read blocks true).Reaches rest n
      ((memberTokens [(key, v)]).reverse ++ read') (c :: outer) := by
  have hinline := beginsToken_inlineChars hwhole (c + 2)
  have htext := beginsToken_scalarText (c + 2) key.toList
  have hcolon : Follows (c :: outer) c (':' :: ' ' :: (inlineChars (c + 2) v ++ tail)) :=
    ⟨by simp [StartsToken, startsGap, isBlank, isBreak], Nat.le_refl c, by simp⟩
  have hscalar : ∀ {line}, (between ⟨scalarText (c + 2) key.toList ++
      (nextLine (scalarText (c + 2) key.toList) c ++
        ':' :: ' ' :: (inlineChars (c + 2) v ++ tail)), line, c + 2⟩
      (.key :: read') (c :: outer) true).Reaches
        (':' :: ' ' :: (inlineChars (c + 2) v ++ tail)) c
        (textToken key.toList :: .key :: read') (c :: outer) :=
    reaches_scalarText key.toList (by simp) (by simp) hcolon .lineEnd
  -- The question mark changes nothing about how the line of the key ends.
  have hnext : nextLine ('?' :: ' ' :: scalarText (c + 2) key.toList) c
      = nextLine (scalarText (c + 2) key.toList) c := by
    have := List.getLast?_append_of_ne_nil ['?', ' '] htext.ne_nil
    rw [nextLine, nextLine, ← this]
    rfl
  simp only [memberChars, if_neg hkey, onNextLine] at htail ⊢
  have htail' := ((htail.of_append (by simp)).of_cons (by simp)).of_cons hinline.ne_nil
  rw [reverse_memberTokens, Bool.eq_false_iff.2 hkey, hnext]
  simp only [List.cons_append, List.append_assoc]
  exact (leadsTo_key hblock htext.startsToken).andThen (hscalar.andThen fun _ =>
    (leadsTo_value hinline.startsToken).andThen (hvalue hfollows htail'))

/-- A member is read from its key on. -/
theorem reaches_member {key : String} (hwhole : Json.Whole v) (hvalue : ReadsValue v)
    (hmember : ReadsMember v) (hblock : BlockAt .blockMappingStart c blocks read (c :: outer) read')
    (hfollows : Follows (c :: outer) n rest) (htail : Tail n (memberChars c [(key, v)]) rest tail) :
    (between ⟨memberChars c [(key, v)] ++ tail, line, c⟩ read blocks true).Reaches rest n
      ((memberTokens [(key, v)]).reverse ++ read') (c :: outer) := by
  by_cases hkey : isSimpleKey key = true
  · exact reaches_member_of_isSimpleKey hkey hmember hblock hfollows htail
  · exact reaches_member_of_not_isSimpleKey hkey hwhole hvalue hblock hfollows htail

/-- The items of a sequence in a block. -/
theorem reaches_items {items : List Value} (hwhole : ∀ v ∈ items, Json.Whole v)
    (h : ∀ v ∈ items, ReadsValue v) (hnil : items ≠ [])
    (hblock : BlockAt .blockSequenceStart c blocks read (c :: outer) read')
    (hfollows : Follows (c :: outer) n rest) (htail : Tail n (itemChars c items) rest tail) :
    (between ⟨itemChars c items ++ tail, line, c⟩ read blocks true).Reaches rest n
      ((itemTokens items).reverse ++ read') (c :: outer) :=
  reaches_parts (itemChars_cons c) (beginsToken_itemChars c) (fun v vs => by simp [itemTokens])
    (fun v hv _ _ _ _ _ _ _ => reaches_item (hwhole v hv) (h v hv)) hnil hblock hfollows htail

/-- The members of a mapping in a block. -/
theorem reaches_members {members : List (String × Value)} (hwhole : ∀ m ∈ members, Json.Whole m.2)
    (h : ∀ m ∈ members, ReadsValue m.2 ∧ ReadsMember m.2) (hnil : members ≠ [])
    (hblock : BlockAt .blockMappingStart c blocks read (c :: outer) read')
    (hfollows : Follows (c :: outer) n rest) (htail : Tail n (memberChars c members) rest tail) :
    (between ⟨memberChars c members ++ tail, line, c⟩ read blocks true).Reaches rest n
      ((memberTokens members).reverse ++ read') (c :: outer) :=
  reaches_parts (memberChars_cons c) (beginsToken_memberChars c)
    (fun m ms => by simp [memberTokens])
    (fun m hm _ _ _ _ _ _ _ => reaches_member (hwhole m hm) (h m hm).1 (h m hm).2) hnil hblock
    hfollows htail

/-- A block that is opened further right ends with the value in it. -/
theorem reaches_closed {start : Token} {tokens : List Token} {l : Lexer} {inner : Nat}
    (hinner : c < inner) (hfollows : Follows (c :: outer) n rest)
    (h : l.Reaches rest n (tokens.reverse ++ start :: read) (inner :: c :: outer)) :
    l.Reaches rest n ((start :: tokens ++ [Token.blockEnd]).reverse ++ read) (c :: outer) := by
  have htokens : (start :: tokens ++ [Token.blockEnd]).reverse ++ read
      = .blockEnd :: (tokens.reverse ++ start :: read) := by
    simp
  rw [htokens]
  exact h.andThen fun _ => (leadsTo_closeBlock hfollows.starts
    (Nat.lt_of_le_of_lt hfollows.column_le hinner)).reaches

theorem Follows.inner (h : Follows (c :: outer) n rest) {inner : Nat} (hinner : c < inner) :
    Follows (inner :: c :: outer) n rest :=
  ⟨h.starts, Nat.le_trans h.column_le (Nat.le_of_lt hinner), by simp⟩

/-- Values without parts are read back. -/
theorem reads_of_isFlat (h : isFlat v = true) (hwhole : Json.Whole v) :
    ReadsValue v ∧ ReadsMember v := by
  constructor
  · intro c outer read line n rest tail hfollows htail
    exact reaches_flat h hwhole (by simp) (by simp) hfollows htail
  · intro c outer read line column n rest tail hcolumn hfollows htail
    have hbegins := beginsToken_inlineChars hwhole (c + 2)
    rw [memberValueChars_of_isFlat h] at htail ⊢
    rw [valueTokens_of_isFlat h]
    exact (leadsTo_space hbegins.startsToken).andThen (reaches_flat h hwhole (by simp; omega) nofun
      hfollows (htail.of_cons hbegins.ne_nil))

/-- Arrays with items are read back if their items are. -/
theorem reads_array {items : List Value} (hwhole : ∀ v ∈ items, Json.Whole v)
    (h : ∀ v ∈ items, ReadsValue v) (hnil : items ≠ []) :
    ReadsValue (.array items) ∧ ReadsMember (.array items) := by
  obtain ⟨w, ws, rfl⟩ := List.exists_cons_of_ne_nil hnil
  have hbegins := fun column => beginsToken_itemChars column w ws
  constructor
  · intro c outer read line n rest tail hfollows htail
    have hinner : c < c + 2 := by omega
    exact reaches_closed hinner hfollows
      (reaches_items hwhole h hnil (.new (by simp)) (hfollows.inner hinner) htail)
  · -- Behind a key the items start where the key does, in the block of the mapping.
    intro c outer read line column n rest tail _ hfollows htail
    rw [memberValueChars] at htail ⊢
    rw [List.append_assoc]
    exact (leadsTo_newLine (hbegins c).startsToken c).andThen (reaches_items hwhole h hnil .inside
      hfollows (htail.of_append (hbegins c).ne_nil))

/-- Objects with members are read back if the values of these are. -/
theorem reads_object {members : List (String × Value)} (hwhole : ∀ m ∈ members, Json.Whole m.2)
    (h : ∀ m ∈ members, ReadsValue m.2 ∧ ReadsMember m.2) (hnil : members ≠ []) :
    ReadsValue (.object members) ∧ ReadsMember (.object members) := by
  obtain ⟨m, ms, rfl⟩ := List.exists_cons_of_ne_nil hnil
  have hbegins := fun column => beginsToken_memberChars column m ms
  have hvalue : ReadsValue (.object (m :: ms)) := by
    intro c outer read line n rest tail hfollows htail
    have hinner : c < c + 2 := by omega
    exact reaches_closed hinner hfollows
      (reaches_members hwhole h hnil (.new (by simp)) (hfollows.inner hinner) htail)
  refine ⟨hvalue, ?_⟩
  intro c outer read line column n rest tail _ hfollows htail
  rw [memberValueChars] at htail ⊢
  rw [List.append_assoc]
  exact (leadsTo_newLine (hbegins (c + 2)).startsToken (c + 2)).andThen
    (hvalue hfollows (htail.of_append (hbegins (c + 2)).ne_nil))

/-- **All values are read inside others**, behind a sign and behind a key. -/
theorem reads_of_whole (hwhole : Json.Whole v) : ReadsValue v ∧ ReadsMember v := by
  induction hwhole with
  | null => exact reads_of_isFlat rfl .null
  | bool b => exact reads_of_isFlat rfl (.bool b)
  | number least greatest => exact reads_of_isFlat rfl (.number least greatest)
  | string s => exact reads_of_isFlat rfl (.string s)
  | @array items h ih =>
    cases items with
    | nil => exact reads_of_isFlat rfl (.array h)
    | cons w ws => exact reads_array h (fun v hv => (ih v hv).1) (by simp)
  | @object members h ih =>
    cases members with
    | nil => exact reads_of_isFlat rfl (.object h)
    | cons m ms => exact reads_object h ih (by simp)

/-! ## Whole texts -/

/-- At the end of the text all open blocks are closed. -/
theorem readAll_end (hblocks : ∀ block ∈ blocks.head?, block ≤ column) :
    (between ⟨[], line, column⟩ read blocks true).readAll
      = some (List.replicate blocks.length Token.blockEnd ++ read).reverse := by
  have hnil : StartsToken [] := nofun
  -- At the end nothing is passed over, and all blocks are still open.
  have hto : (between ⟨[], line, column⟩ read blocks true).toToken
      = some (between ⟨[], line, column⟩ read blocks true).closeBlocks :=
    toToken_of_skipGap passed_none (skipGap_of_startsToken hnil false)
  rw [closeBlocks_eq_self hblocks] at hto
  rw [readAll, hto]
  simp [between, finish, closeAll, inFlow, closeFirst, dropCandidate]

theorem follows_end : Follows blocks 0 [] := ⟨nofun, Nat.zero_le _, fun _ => rfl⟩

/-- What is written for a value that stands alone, up to the end of the last line. -/
def bodyChars (v : Value) : List Char := inlineChars (if isFlat v then 2 else 0) v

/-- A text is the body of the value, ended by a line break. -/
theorem render_eq (v : Value) : render v = String.ofList (onNextLine 0 (bodyChars v) []) := by
  cases v with
  | array items => cases items <;> rfl
  | object members => cases members <;> rfl
  | _ => rfl

/-- What is read up to the end of a text makes its tokens. -/
theorem readAll_start {tokens : List Token}
    (h : (between ⟨text, 0, 0⟩ [] [] true).Reaches [] 0 read blocks)
    (hblocks : ∀ block ∈ blocks.head?, block ≤ 0)
    (htokens : List.replicate blocks.length Token.blockEnd ++ read = tokens.reverse) :
    (Lexer.start text).readAll = some tokens := by
  obtain ⟨line', hleads⟩ := h
  refine hleads _ ?_
  rw [readAll_end hblocks, htokens, List.reverse_reverse]

/-- A value that stands alone is read as its tokens. -/
theorem readAll_body (hwhole : Json.Whole v) (htail : Tail 0 (bodyChars v) [] tail) :
    (Lexer.start (bodyChars v ++ tail)).readAll = some (valueTokens false v) := by
  cases hflat : isFlat v with
  | true =>
    rw [bodyChars, hflat] at htail ⊢
    have hreaches : (between ⟨inlineChars 2 v ++ tail, 0, 0⟩ [] [] true).Reaches [] 0
        ((valueTokens false v).reverse ++ []) [] :=
      reaches_flat hflat hwhole (by simp) (by simp) follows_end htail
    exact readAll_start hreaches (by simp) (List.append_nil _)
  | false =>
    rw [bodyChars, hflat] at htail ⊢
    cases hwhole with
    | @array items h =>
      obtain ⟨w, ws, rfl⟩ : ∃ w ws, items = w :: ws := by
        cases items with
        | nil => cases hflat
        | cons w ws => exact ⟨w, ws, rfl⟩
      exact readAll_start (reaches_items h (fun v hv => (reads_of_whole (h v hv)).1) (by simp)
        (.new (by simp)) follows_end htail) (by simp) (by simp [valueTokens])
    | @object members h =>
      obtain ⟨m, ms, rfl⟩ : ∃ m ms, members = m :: ms := by
        cases members with
        | nil => cases hflat
        | cons m ms => exact ⟨m, ms, rfl⟩
      exact readAll_start (reaches_members h (fun m hm => reads_of_whole (h m hm)) (by simp)
        (.new (by simp)) follows_end htail) (by simp) (by simp [valueTokens])
    | _ => cases hflat

/-- **The text of a value is read as its tokens.** -/
theorem readAll_render (hwhole : Json.Whole v) :
    (Lexer.start (render v).toList).readAll = some (valueTokens false v) := by
  rw [render_eq, String.toList_ofList, onNextLine, List.append_assoc]
  exact readAll_body hwhole .lineEnd

/-- A text ends with a line break. -/
theorem getLast?_render (v : Value) :
    ∃ c, (render v).toList.getLast? = some c ∧ isBreak c = true := by
  rw [render_eq, String.toList_ofList, onNextLine, List.append_nil]
  unfold nextLine
  split
  · rename_i hbreak
    rw [indentation_zero, List.append_nil]
    simpa [Option.any_eq_true] using hbreak
  · exact ⟨'\n', List.getLast?_concat, rfl⟩

/-- A text that does not end in a line feed has a line end of its own. -/
theorem render_eq_body (hlast : (render v).toList.getLast? ≠ some '\n') :
    render v = String.ofList (bodyChars v) := by
  rw [render_eq, String.toList_ofList, onNextLine, List.append_nil] at *
  unfold nextLine at *
  split at hlast
  · rename_i hbreak
    simp [hbreak, indentation_zero]
  · exact absurd List.getLast?_concat hlast

/-- **So it is with one more line feed**, if the text ends with another line end and its last line
ends just once. -/
theorem readAll_render_lineFeed (hwhole : Json.Whole v)
    (hlast : (render v).toList.getLast? ≠ some '\n')
    (honce : endsTwice (render v).toList = false) :
    (Lexer.start ((render v).toList ++ ['\n'])).readAll = some (valueTokens false v) := by
  have hends : EndsOnce (render v).toList := ⟨getLast?_render v, honce⟩
  rw [render_eq_body hlast, String.toList_ofList] at hends ⊢
  exact readAll_body hwhole (.spare hends)

end LoginSettings.Yaml
