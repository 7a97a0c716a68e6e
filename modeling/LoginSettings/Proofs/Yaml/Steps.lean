import LoginSettings.Proofs.Yaml.Plain
import LoginSettings.Yaml.Lexer

/-!
# Steps of the lexer

How the lexer gets from one token to the next outside brackets. `LeadsTo l n` says that all that is
read from the state `n` on is read from `l` on too, so that steps can be put one after another. What
is passed over between tokens, candidates that are stale and blocks that end are steps as well.
-/

namespace LoginSettings.Yaml

open Cursor

namespace Lexer

variable {l m n : Lexer} {x : Char} {xs rest : List Char} {line column : Nat} {cursor : Cursor}
  {read : List Token} {blocks : List Nat} {allowed : Bool} {candidate : Option Candidate}

/-! ## Putting steps together -/

/-- Holds of states from which at least the tokens are read that are read from the second one. -/
def LeadsTo (l n : Lexer) : Prop := ∀ ts, n.readAll = some ts → l.readAll = some ts

/-- Steps after steps are steps. -/
theorem LeadsTo.trans (h : LeadsTo l m) (h' : LeadsTo m n) : LeadsTo l n :=
  fun ts hts => h ts (h' ts hts)

instance : Trans LeadsTo LeadsTo LeadsTo := ⟨LeadsTo.trans⟩

/-- Reading a token. -/
theorem leadsTo_of_readToken (hto : l.toToken = some m) (hrest : m.cursor.rest = x :: xs)
    (hread : m.readToken x xs = some n)
    (hlength : n.cursor.rest.length < l.cursor.rest.length) : LeadsTo l n := by
  intro ts hts
  rw [readAll, hto]
  simp only [hrest, hread, hlength, if_true, hts]

/-- Passing over what stands in front of the same token. -/
theorem leadsTo_of_toToken (hto : l.toToken = n.toToken)
    (hlength : n.cursor.rest.length ≤ l.cursor.rest.length) : LeadsTo l n := by
  intro ts hts
  rw [readAll] at hts ⊢
  rw [hto]
  cases hn : n.toToken with
  | none => simp [hn] at hts
  | some m =>
    simp only [hn] at hts ⊢
    cases hm : m.cursor.rest with
    | nil => simpa [hm] using hts
    | cons x xs =>
      simp only [hm] at hts ⊢
      cases hread : m.readToken x xs with
      | none => simp [hread] at hts
      | some k =>
        -- A token that makes the shorter rest shorter does so with the longer one.
        simp only [hread] at hts ⊢
        split at hts
        · rename_i hk
          rw [if_pos (Nat.lt_of_lt_of_le hk hlength)]
          exact hts
        · cases hts

/-! ## Between tokens -/

/-- The state between two tokens, in which nothing before can still turn out to be a key. -/
def between (cursor : Cursor) (read : List Token) (blocks : List Nat) (allowed : Bool) : Lexer :=
  ⟨cursor, read, blocks, none, [], allowed⟩

/-- Holds of states from which everything is read up to `rest`, which starts at a column of some
line. -/
def Reaches (l : Lexer) (rest : List Char) (column : Nat) (read : List Token)
    (blocks : List Nat) : Prop :=
  ∃ line, LeadsTo l (between ⟨rest, line, column⟩ read blocks true)

theorem LeadsTo.reaches (h : LeadsTo l (between ⟨rest, line, column⟩ read blocks true)) :
    l.Reaches rest column read blocks :=
  ⟨line, h⟩

theorem LeadsTo.andThen (h : LeadsTo l m) (h' : m.Reaches rest column read blocks) :
    l.Reaches rest column read blocks :=
  h'.imp fun _ => h.trans

/-- Where one part has been reached, the next one can be reached from there. -/
theorem Reaches.andThen {rest' : List Char} {column' : Nat} {read' : List Token}
    {blocks' : List Nat} (h : l.Reaches rest column read blocks)
    (h' : ∀ line, (between ⟨rest, line, column⟩ read blocks true).Reaches rest' column' read'
      blocks') :
    l.Reaches rest' column' read' blocks' := by
  obtain ⟨line, hleads⟩ := h
  exact hleads.andThen (h' line)

/-- There is no gap in front of a token. -/
theorem skipGap_of_startsToken (h : StartsToken rest) (inFlow : Bool) :
    skipGap inFlow allowed ⟨rest, line, column⟩ = (⟨rest, line, column⟩, allowed) := by
  rw [skipGap]
  split
  · rfl
  · rename_i x xs hrest
    simp only at hrest
    subst hrest
    have hx := h x rfl
    simp only [startsGap, isBlank, Bool.or_eq_false_iff, decide_eq_false_iff_not, not_or] at hx
    simp [hx]

/-- The indentation of a line is passed over. -/
theorem skipGap_indentation (n : Nat) :
    skipGap false allowed ⟨indentation n ++ rest, line, column⟩
      = skipGap false allowed ⟨rest, line, column + n⟩ := by
  induction n generalizing column with
  | zero => rfl
  | succ n ih =>
    rw [skipGap]
    simp only [indentation_succ, List.cons_append, decide_true, Bool.true_or, if_true,
      past_of_not_isBreak isBreak_space]
    rw [ih, Nat.add_assoc, Nat.add_comm 1]

/-- The next line is reached through its indentation, and a key may stand there. -/
theorem skipGap_newLine (h : StartsToken rest) (n : Nat) :
    skipGap false allowed ⟨newLine n ++ rest, line, column⟩ = (⟨rest, line + 1, n⟩, true) := by
  rw [newLine, List.cons_append, skipGap]
  simp [past_of_isBreak isBreak_lineFeed, skipGap_indentation, skipGap_of_startsToken h]

/-- A candidate that a key cannot come from any more, and need not. -/
def Passed (candidate : Option Candidate) (line : Nat) : Prop :=
  ∀ k ∈ candidate, k.required = false ∧ k.line < line

/-- The state at the next token, where that is in the blocks that are open. -/
theorem toToken_of_skipGap {allowed' : Bool} (hcandidate : Passed candidate line)
    (hskip : skipGap false allowed cursor = (⟨rest, line, column⟩, allowed')) :
    toToken ⟨cursor, read, blocks, candidate, [], allowed⟩
      = some (between ⟨rest, line, column⟩ read blocks allowed').closeBlocks := by
  have hdrop : dropStale ⟨⟨rest, line, column⟩, read, blocks, candidate, [], allowed'⟩
      = some (between ⟨rest, line, column⟩ read blocks allowed') := by
    cases candidate with
    | none => rfl
    | some k =>
      obtain ⟨hrequired, hline⟩ := hcandidate k rfl
      simp [dropStale, freshen, isStale, hrequired, hline, between]
  simp only [toToken, inFlow, List.isEmpty_nil, Bool.not_true, hskip, hdrop, Option.map_some]

theorem passed_none : Passed none line := nofun

/-- Behind a token everything up to the next one is passed over. -/
theorem leadsTo_of_skipGap {allowed' : Bool} (hcandidate : Passed candidate line)
    (hskip : skipGap false allowed cursor = (⟨rest, line, column⟩, allowed'))
    (hrest : StartsToken rest) (hlength : rest.length ≤ cursor.rest.length) :
    LeadsTo ⟨cursor, read, blocks, candidate, [], allowed⟩
      (between ⟨rest, line, column⟩ read blocks allowed') := by
  refine leadsTo_of_toToken ?_ hlength
  rw [toToken_of_skipGap hcandidate hskip]
  exact (toToken_of_skipGap passed_none (skipGap_of_startsToken hrest false)).symm

/-- No block is closed that is not indented more than the line. -/
theorem closeBlocks_eq_self (h : ∀ block ∈ l.blocks.head?, block ≤ l.cursor.column) :
    l.closeBlocks = l := by
  have htake : l.blocks.takeWhile (fun b => decide (l.cursor.column < b)) = [] := by
    cases hblocks : l.blocks with
    | nil => rfl
    | cons block blocks =>
      rw [List.takeWhile_cons_of_neg]
      simpa using h block (by simp [hblocks])
  rw [closeBlocks, htake]
  split <;> rfl

/-- A block that is indented more than the line is closed. -/
theorem closeBlocks_between_cons {block : Nat} (h : column < block) :
    (between ⟨rest, line, column⟩ read (block :: blocks) allowed).closeBlocks
      = (between ⟨rest, line, column⟩ (.blockEnd :: read) blocks allowed).closeBlocks := by
  have htake : (block :: blocks).takeWhile (fun b => decide (column < b))
      = block :: blocks.takeWhile fun b => decide (column < b) :=
    List.takeWhile_cons_of_pos (by simpa using h)
  show closeFirst _ ((block :: blocks).takeWhile fun b => decide (column < b)).length = _
  rw [htake]
  simp only [closeFirst, between, List.length_cons, List.drop_succ_cons, List.replicate_succ',
    List.append_assoc, List.singleton_append]
  rfl

/-- A block that starts right of the next token ends. -/
theorem leadsTo_closeBlock {block : Nat} (hrest : StartsToken rest) (hcolumn : column < block) :
    LeadsTo (between ⟨rest, line, column⟩ read (block :: blocks) allowed)
      (between ⟨rest, line, column⟩ (.blockEnd :: read) blocks allowed) := by
  refine leadsTo_of_toToken ?_ (Nat.le_refl _)
  have hskip : skipGap false allowed ⟨rest, line, column⟩ = (⟨rest, line, column⟩, allowed) :=
    skipGap_of_startsToken hrest false
  rw [between, between, toToken_of_skipGap passed_none hskip, toToken_of_skipGap passed_none hskip]
  exact congrArg some (closeBlocks_between_cons hcolumn)

/-- A token is read where it starts in the blocks that are open. -/
theorem leadsTo_of_token (hstarts : startsGap x = false)
    (hblocks : ∀ block ∈ blocks.head?, block ≤ column)
    (hread : (between ⟨x :: xs, line, column⟩ read blocks allowed).readToken x xs = some n)
    (hlength : n.cursor.rest.length ≤ xs.length) :
    LeadsTo (between ⟨x :: xs, line, column⟩ read blocks allowed) n := by
  have hrest : StartsToken (x :: xs) := by simpa [StartsToken] using hstarts
  have hto : (between ⟨x :: xs, line, column⟩ read blocks allowed).toToken
      = some (between ⟨x :: xs, line, column⟩ read blocks allowed).closeBlocks :=
    toToken_of_skipGap passed_none (skipGap_of_startsToken hrest false)
  rw [closeBlocks_eq_self hblocks] at hto
  exact leadsTo_of_readToken hto rfl hread (Nat.lt_succ_of_le hlength)

/-- A space between tokens. -/
theorem leadsTo_space (hrest : StartsToken rest) :
    LeadsTo (between ⟨' ' :: rest, line, column⟩ read blocks allowed)
      (between ⟨rest, line, column + 1⟩ read blocks allowed) := by
  refine leadsTo_of_skipGap passed_none ?_ hrest (by simp)
  have hskip : skipGap false allowed ⟨' ' :: rest, line, column⟩
      = skipGap false allowed ⟨rest, line, column + 1⟩ := skipGap_indentation 1
  rw [hskip, skipGap_of_startsToken hrest]

/-- The start of a line between tokens. -/
theorem leadsTo_newLine (hrest : StartsToken rest) (n : Nat) :
    LeadsTo (between ⟨newLine n ++ rest, line, column⟩ read blocks allowed)
      (between ⟨rest, line + 1, n⟩ read blocks true) :=
  leadsTo_of_skipGap passed_none (skipGap_newLine hrest n) hrest (by simp)

/-! ## Signs -/

/-- Holds of the blocks and tokens before and after a block is opened at a column, unless one is
open there. -/
inductive BlockAt (start : Token) (column : Nat) :
    List Nat → List Token → List Nat → List Token → Prop where
  | inside {outer : List Nat} {read : List Token} :
    BlockAt start column (column :: outer) read (column :: outer) read
  | new {blocks : List Nat} {read : List Token} (h : ∀ block ∈ blocks.head?, block < column) :
    BlockAt start column blocks read (column :: blocks) (start :: read)

section

variable {start : Token} {blocks' : List Nat} {read' : List Token}

theorem all_lt (h : ∀ block ∈ blocks.head?, block < column) :
    blocks.head?.all (· < column) = true := by
  cases hblock : blocks.head? <;> simp_all

/-- At the place of a block no block around it is indented more. -/
theorem BlockAt.head?_le (h : BlockAt start column blocks read blocks' read') :
    ∀ block ∈ blocks.head?, block ≤ column := by
  cases h with
  | inside => simp
  | new h => exact fun block hblock => Nat.le_of_lt (h block hblock)

/-- A block is opened where there is none yet. -/
theorem openBlock_of_blockAt (cursor : Cursor) (allowed : Bool)
    (h : BlockAt start column blocks read blocks' read') :
    (between cursor read blocks allowed).openBlock column start read.length
      = between cursor read' blocks' allowed := by
  cases h with
  | inside => simp [openBlock, between, inFlow]
  | new h => simp [openBlock, between, inFlow, all_lt h, putIn]

/-- The hyphen of an item opens a block, unless it stands in one. -/
theorem leadsTo_entry (h : BlockAt .blockSequenceStart column blocks read blocks' read')
    (hrest : StartsToken rest) :
    LeadsTo (between ⟨'-' :: ' ' :: rest, line, column⟩ read blocks true)
      (between ⟨rest, line, column + 2⟩ (.blockEntry :: read') blocks' true) := by
  have hopen := openBlock_of_blockAt ⟨'-' :: ' ' :: rest, line, column⟩ true h
  have hentry : (between ⟨'-' :: ' ' :: rest, line, column⟩ read blocks true).readEntry
      = some (between ⟨' ' :: rest, line, column + 1⟩ (.blockEntry :: read') blocks' true) := by
    rw [readEntry, if_neg (by simp [between, inFlow])]
    exact congrArg (fun l => l.dropCandidate.map fun l =>
      (l.emit .blockEntry l.cursor.past).allowKeys true) hopen
  have hread : (between ⟨'-' :: ' ' :: rest, line, column⟩ read blocks true).readToken '-'
      (' ' :: rest) = some (between ⟨' ' :: rest, line, column + 1⟩ (.blockEntry :: read')
        blocks' true) := by
    rw [← hentry]
    simp [readToken, between, atMarker, endsWord]
  exact (leadsTo_of_token rfl h.head?_le hread (Nat.le_refl _)).trans (leadsTo_space hrest)

/-- The question mark of a key opens a block, unless it stands in one. -/
theorem leadsTo_key (h : BlockAt .blockMappingStart column blocks read blocks' read')
    (hrest : StartsToken rest) :
    LeadsTo (between ⟨'?' :: ' ' :: rest, line, column⟩ read blocks true)
      (between ⟨rest, line, column + 2⟩ (.key :: read') blocks' true) := by
  have hopen := openBlock_of_blockAt ⟨'?' :: ' ' :: rest, line, column⟩ true h
  have hkey : (between ⟨'?' :: ' ' :: rest, line, column⟩ read blocks true).readKey
      = some (between ⟨' ' :: rest, line, column + 1⟩ (.key :: read') blocks' true) := by
    rw [readKey, if_neg (by simp [between, inFlow])]
    exact congrArg (fun l => l.dropCandidate.map fun l =>
      (l.emit .key l.cursor.past).allowKeys !l.inFlow) hopen
  have hread : (between ⟨'?' :: ' ' :: rest, line, column⟩ read blocks true).readToken '?'
      (' ' :: rest) = some (between ⟨' ' :: rest, line, column + 1⟩ (.key :: read') blocks' true)
      := by
    rw [← hkey]
    simp [readToken, between, atMarker, endsWord]
  exact (leadsTo_of_token rfl h.head?_le hread (Nat.le_refl _)).trans (leadsTo_space hrest)

/-- The colon behind a key on lines of its own. -/
theorem leadsTo_value {outer : List Nat} (hrest : StartsToken rest) :
    LeadsTo (between ⟨':' :: ' ' :: rest, line, column⟩ read (column :: outer) true)
      (between ⟨rest, line, column + 2⟩ (.value :: read) (column :: outer) true) := by
  have hinside : BlockAt .blockMappingStart column (column :: outer) read (column :: outer) read :=
    .inside
  have hopen := openBlock_of_blockAt ⟨':' :: ' ' :: rest, line, column⟩ true hinside
  have hvalue : (between ⟨':' :: ' ' :: rest, line, column⟩ read (column :: outer) true).readValue
      = some (between ⟨' ' :: rest, line, column + 1⟩ (.value :: read) (column :: outer) true)
      := by
    exact congrArg (fun l => some ((l.emit .value l.cursor.past).allowKeys !l.inFlow)) hopen
  have hread : (between ⟨':' :: ' ' :: rest, line, column⟩ read (column :: outer) true).readToken
      ':' (' ' :: rest)
        = some (between ⟨' ' :: rest, line, column + 1⟩ (.value :: read) (column :: outer) true)
      := by
    rw [← hvalue]
    simp [readToken, between, atMarker, endsWord]
  exact (leadsTo_of_token rfl (by simp) hread (Nat.le_refl _)).trans (leadsTo_space hrest)

/-- A candidate that is not stale is kept. -/
theorem toToken_of_candidate (read : List Token) (allowed : Bool) (k : Candidate)
    (hrest : StartsToken rest) (hline : line ≤ k.line) (hcolumn : column ≤ k.column + longestKey)
    (hblocks : ∀ block ∈ blocks.head?, block ≤ column) :
    toToken ⟨⟨rest, line, column⟩, read, blocks, some k, [], allowed⟩
      = some ⟨⟨rest, line, column⟩, read, blocks, some k, [], allowed⟩ := by
  have hstale : isStale ⟨⟨rest, line, column⟩, read, blocks, some k, [], allowed⟩ k = false := by
    simp [isStale]
    omega
  have hdrop : dropStale ⟨⟨rest, line, column⟩, read, blocks, some k, [], allowed⟩
      = some ⟨⟨rest, line, column⟩, read, blocks, some k, [], allowed⟩ := by
    simp [dropStale, freshen, hstale]
  simp only [toToken, inFlow, List.isEmpty_nil, Bool.not_true, skipGap_of_startsToken hrest, hdrop,
    Option.map_some]
  exact congrArg some (closeBlocks_eq_self hblocks)

/-- The colon behind a key on the same line puts the tokens of the key in where it starts, and opens
a block there, unless it stands in one. -/
theorem leadsTo_value_of_candidate {scalar : Token} {required : Bool}
    (h : BlockAt .blockMappingStart column blocks read blocks' read') {width : Nat}
    (hwidth : width ≤ longestKey) (hrest : endsWord rest = true) :
    LeadsTo ⟨⟨':' :: rest, line, column + width⟩, scalar :: read, blocks,
        some ⟨required, read.length, line, column⟩, [], false⟩
      (between ⟨rest, line, column + width + 1⟩ (.value :: scalar :: .key :: read') blocks'
        false) := by
  have hcolon : StartsToken (':' :: rest) := by simp [StartsToken, startsGap, isBlank, isBreak]
  have hto := toToken_of_candidate (scalar :: read) false ⟨required, read.length, line, column⟩
    hcolon (Nat.le_refl line) (Nat.add_le_add_left hwidth column)
    (fun block hblock => Nat.le_trans (h.head?_le block hblock) (Nat.le_add_right _ _))
  refine leadsTo_of_readToken hto rfl ?_ (by simp [between])
  have hvalue : readValue ⟨⟨':' :: rest, line, column + width⟩, scalar :: read, blocks,
        some ⟨required, read.length, line, column⟩, [], false⟩
      = some (between ⟨rest, line, column + width + 1⟩ (.value :: scalar :: .key :: read') blocks'
        false) := by
    -- The tokens go in where the candidate was noted, that is in front of the scalar.
    cases h with
    | inside => simp [readValue, putIn, openBlock, inFlow, emit, allowKeys, between, past, isBreak]
    | new h =>
      have hlater : read.length + 1 + 1 - read.length = 2 := by omega
      simp [readValue, putIn, openBlock, inFlow, emit, allowKeys, between, all_lt h, past, isBreak,
        hlater]
  rw [← hvalue]
  simp [readToken, atMarker, hrest]

end

/-! ## Candidates -/

/-- What can be a key where a token starts. -/
def noted (allowed : Bool) (blocks : List Nat) (read : List Token) (line column : Nat) :
    Option Candidate :=
  if allowed then some ⟨blocks.head? = some column, read.length, line, column⟩ else none

theorem noteCandidate_between :
    (between cursor read blocks allowed).noteCandidate
      = some ⟨cursor, read, blocks, noted allowed blocks read cursor.line cursor.column, [],
        allowed⟩ := by
  cases allowed <;> rfl

/-- Off the column of the block around it nothing has to be a key. -/
theorem passed_noted (hallowed : allowed = true → blocks.head? ≠ some column) {line' : Nat}
    (hline : line < line') : Passed (noted allowed blocks read line column) line' := by
  intro k hk
  cases allowed with
  | false => cases hk
  | true =>
    obtain rfl : _ = k := Option.some.inj hk
    exact ⟨decide_eq_false (hallowed rfl), hline⟩

/-! ## Empty sequences and mappings -/

/-- Brackets with nothing in between, and the tokens for them. -/
inductive Brackets : Char → Char → Token → Token → Prop where
  | sequence : Brackets '[' ']' .sequenceStart .sequenceEnd
  | mapping : Brackets '{' '}' .mappingStart .mappingEnd

section

variable {opening closing : Char} {start stop : Token}

/-- An opening bracket leads into the brackets. -/
theorem leadsTo_opening (h : Brackets opening closing start stop)
    (hblocks : ∀ block ∈ blocks.head?, block ≤ column) :
    LeadsTo (between ⟨opening :: rest, line, column⟩ read blocks allowed)
      ⟨⟨rest, line, column + 1⟩, start :: read, blocks, none,
        [noted allowed blocks read line column], true⟩ := by
  have hopening : startsGap opening = false ∧ isBreak opening = false := by
    cases h <;> exact ⟨rfl, rfl⟩
  refine leadsTo_of_token hopening.1 hblocks ?_ (Nat.le_refl _)
  have hread : (between ⟨opening :: rest, line, column⟩ read blocks allowed).readToken opening rest
      = (between ⟨opening :: rest, line, column⟩ read blocks allowed).readOpening start := by
    cases h <;> simp [readToken, atMarker, between]
  rw [hread, readOpening, noteCandidate_between]
  simp [emit, past_of_not_isBreak hopening.2]

/-- A closing bracket leads out of the brackets. -/
theorem leadsTo_closing {candidate : Option Candidate} (h : Brackets opening closing start stop)
    (hcandidate : ∀ k ∈ candidate, line ≤ k.line ∧ column ≤ k.column + longestKey) :
    LeadsTo ⟨⟨closing :: rest, line, column⟩, read, blocks, none, [candidate], true⟩
      ⟨⟨rest, line, column + 1⟩, stop :: read, blocks, candidate, [], false⟩ := by
  have hclosing : StartsToken (closing :: rest) ∧ isBreak closing = false := by
    cases h <;> simp [StartsToken, startsGap, isBlank, isBreak]
  -- The candidate from in front of the brackets is near enough to stay one.
  have hfreshen : freshen ⟨⟨closing :: rest, line, column⟩, read, blocks, none, [candidate], true⟩
      candidate = some candidate := by
    cases candidate with
    | none => rfl
    | some k =>
      obtain ⟨hline, hcolumn⟩ := hcandidate k rfl
      have hstale : isStale ⟨⟨closing :: rest, line, column⟩, read, blocks, none, [some k], true⟩ k
          = false := by
        simp [isStale]
        omega
      simp [freshen, hstale]
  have hto : toToken ⟨⟨closing :: rest, line, column⟩, read, blocks, none, [candidate], true⟩
      = some ⟨⟨closing :: rest, line, column⟩, read, blocks, none, [candidate], true⟩ := by
    simp [toToken, inFlow, skipGap_of_startsToken hclosing.1, dropStale, hfreshen]
    rfl
  refine leadsTo_of_readToken hto rfl ?_ (by simp)
  have hread : readToken ⟨⟨closing :: rest, line, column⟩, read, blocks, none, [candidate], true⟩
      closing rest
        = readClosing ⟨⟨closing :: rest, line, column⟩, read, blocks, none, [candidate], true⟩
          stop := by
    cases h <;> simp [readToken, atMarker]
  rw [hread, readClosing]
  simp [dropCandidate, emit, allowKeys, past_of_not_isBreak hclosing.2]

/-- Brackets with nothing in between, at the end of a line. -/
theorem leadsTo_brackets (h : Brackets opening closing start stop)
    (hblocks : ∀ block ∈ blocks.head?, block ≤ column)
    (hallowed : allowed = true → blocks.head? ≠ some column) (hrest : StartsToken rest) (n : Nat) :
    LeadsTo (between ⟨opening :: closing :: (newLine n ++ rest), line, column⟩ read blocks allowed)
      (between ⟨rest, line + 1, n⟩ (stop :: start :: read) blocks true) := by
  have hcandidate : ∀ k ∈ noted allowed blocks read line column,
      line ≤ k.line ∧ column + 1 ≤ k.column + longestKey := by
    intro k hk
    cases allowed with
    | false => cases hk
    | true =>
      obtain rfl : _ = k := Option.some.inj hk
      simp [longestKey]
  exact (leadsTo_opening h hblocks).trans ((leadsTo_closing h hcandidate).trans
    (leadsTo_of_skipGap (passed_noted hallowed (Nat.lt_succ_self line)) (skipGap_newLine hrest n)
      hrest (by simp)))

end

end Lexer
end LoginSettings.Yaml
