import ParseTrail.Proofs.Cursor.Frontier
import ParseTrail.Proofs.Source

/-!
# Reading on after failures

A source that has failed may go on, and a cursor on it then reads on. A failure between two
characters loses nothing. But one that comes while a character is being taken loses the bytes of it
that were taken already. The others encode nothing by themselves, and each is told as malformed.

- `Source.exists_pieces`: what a source does falls into characters, torn characters and failures;
- `reading_on_after_failures`: what a cursor reads of them;
- `torn_character_is_lost`: a character that is not read, though all of its bytes are handed out.
-/

namespace ParseTrail

namespace Source

/-- A byte that is handed out, or a failure. -/
abbrev Item : Type := Except SourceError UInt8

/-- What a source does, one item after another, apart from interruptions. -/
def items : Source → List Item
  | [] => []
  | .data bytes :: rest => bytes.map .ok ++ items rest
  | .error e :: rest => if e.kind = .interrupted then items rest else .error e :: items rest
  | .pause :: rest => items rest

/-- This is what the source does, and its end is final. -/
structure Does (src : Source) (items : List Item) : Prop where
  final : .pause ∉ src
  items : src.items = items

/-- The bytes among items. -/
def bytesOf (items : List Item) : List UInt8 :=
  items.filterMap Except.toOption

/-- The failure that an answer tells, if it does. -/
def failure? {α : Type} : Except SourceError α → Option SourceError
  | .error e => some e
  | .ok _ => none

/-- The next item, if there is one. -/
def nextItem : List Item → Except SourceError (Option UInt8) × List Item
  | [] => (.ok none, [])
  | .ok byte :: more => (.ok (some byte), more)
  | .error e :: more => (.error e, more)

/-- A part of what a source does: a failure, a character, or a character with a failure inside it,
by what of it is handed out before and what else happens until its end. -/
inductive Piece where
  | failure (e : SourceError)
  | whole (ch : Char)
  | torn (ch : Char) (taken : List UInt8) (e : SourceError) (others : List Item)

namespace Piece

/-- What the source does. -/
def items : Piece → List Item
  | failure e => [.error e]
  | whole ch => (String.utf8EncodeChar ch).map .ok
  | torn _ taken e others => taken.map .ok ++ .error e :: others

/-- The character that is handed out, whole or not. -/
def letters : Piece → List Char
  | failure _ => []
  | whole ch | torn ch _ _ _ => [ch]

/-- The character that is handed out whole. -/
def kept : Piece → List Char
  | whole ch => [ch]
  | failure _ | torn _ _ _ _ => []

/-- A torn character has bytes on both sides of the failure. -/
def Sound : Piece → Prop
  | torn ch taken _ others =>
    taken ≠ [] ∧ bytesOf others ≠ [] ∧ taken ++ bytesOf others = String.utf8EncodeChar ch
  | _ => True

/-- The failure lies inside a character. -/
def Torn : Piece → Prop
  | torn _ _ _ _ => True
  | _ => False

end Piece

/-- What a source does falls into pieces, and the characters of these are a text. -/
structure FallsInto (items : List Item) (cs : List Char) (pieces : List Piece) : Prop where
  sound : ∀ p ∈ pieces, p.Sound
  items : pieces.flatMap Piece.items = items
  letters : pieces.flatMap Piece.letters = cs

variable {src rest : Source} {items more : List Item} {byte : UInt8} {ch : Char} {cs : List Char}

/-! ### Items -/

/-- The next byte is the next item, interruptions apart. -/
theorem nextByte_of_does (h : src.Does items) :
    ∃ rest, src.nextByte = ((nextItem items).1, rest) ∧ rest.Does (nextItem items).2 := by
  obtain ⟨hfinal, rfl⟩ := h
  induction src with
  | nil => exact ⟨[], rfl, hfinal, rfl⟩
  | cons event src ih =>
    have hsrc : .pause ∉ src := fun hmem => hfinal (List.mem_cons_of_mem _ hmem)
    cases event with
    | data bytes =>
      rcases bytes with _ | ⟨byte, bytes⟩
      · exact ih hsrc
      · exact ⟨.data bytes :: src, rfl, by simpa using hsrc, rfl⟩
    | error e =>
      by_cases hkind : e.kind = .interrupted
      · rw [nextByte, Source.items, if_pos hkind, if_pos hkind]
        exact ih hsrc
      · rw [nextByte, Source.items, if_neg hkind, if_neg hkind]
        exact ⟨src, rfl, hsrc, rfl⟩
    | pause => exact absurd List.mem_cons_self hfinal

/-- The bytes among two lists of items are those of both. -/
theorem bytesOf_append (items more : List Item) :
    bytesOf (items ++ more) = bytesOf items ++ bytesOf more :=
  List.filterMap_append

/-- Items that are all bytes are these bytes. -/
theorem bytesOf_map_ok (bytes : List UInt8) : bytesOf (bytes.map .ok) = bytes := by
  rw [bytesOf, List.filterMap_map]
  exact List.filterMap_some

/-- The bytes among the items of a source are its bytes. -/
theorem bytesOf_items (h : .pause ∉ src) : bytesOf src.items = src.bytes := by
  induction src with
  | nil => rfl
  | cons event src ih =>
    have hsrc := ih fun hmem => h (List.mem_cons_of_mem _ hmem)
    cases event with
    | data bytes => rw [Source.items, Source.bytes, bytesOf_append, bytesOf_map_ok, hsrc]
    | error e =>
      have hbytes : Source.bytes (.error e :: src) = Source.bytes src := rfl
      rw [Source.items, hbytes, ← hsrc]
      split <;> rfl
    | pause => exact absurd List.mem_cons_self h

/-! ### Pieces -/

/-- The bytes that come first are handed out together, or a failure comes between them. -/
theorem split_items {first other : List UInt8} (h : bytesOf items = first ++ other) :
    ∃ more, bytesOf more = other ∧ (items = first.map .ok ++ more ∨
      ∃ taken e others, items = taken.map .ok ++ .error e :: others ++ more ∧
        bytesOf others ≠ [] ∧ taken ++ bytesOf others = first) := by
  induction items generalizing first with
  | nil =>
    obtain ⟨rfl, rfl⟩ := List.append_eq_nil_iff.mp h.symm
    exact ⟨[], rfl, .inl rfl⟩
  | cons item items ih =>
    rcases first with _ | ⟨byte, first⟩
    · exact ⟨item :: items, h, .inl rfl⟩
    · rcases item with e | b
      · -- What belongs to the first bytes after the failure ends where the others begin.
        have hbytes : bytesOf items = (byte :: first) ++ other := h
        obtain ⟨others, more, rfl, hothers, hmore⟩ := List.filterMap_eq_append_iff.mp hbytes
        refine ⟨more, hmore, .inr ⟨[], e, others, rfl, ?_, hothers⟩⟩
        exact fun hnil => List.cons_ne_nil byte first (hothers.symm.trans hnil)
      · obtain ⟨rfl, hbytes⟩ := List.cons.inj h
        obtain ⟨more, hmore, rfl | ⟨taken, e, others, rfl, hne, rfl⟩⟩ := ih hbytes
        · exact ⟨more, hmore, .inl rfl⟩
        · exact ⟨more, hmore, .inr ⟨b :: taken, e, others, rfl, hne, rfl⟩⟩

/-- One more piece comes with its items and its letters. -/
theorem FallsInto.cons {p : Piece} {pieces : List Piece} (hp : p.Sound)
    (h : FallsInto more cs pieces) :
    FallsInto (p.items ++ more) (p.letters ++ cs) (p :: pieces) where
  sound := List.forall_mem_cons.mpr ⟨hp, h.sound⟩
  items := by rw [List.flatMap_cons, h.items]
  letters := by rw [List.flatMap_cons, h.letters]

/-- What a source does falls into pieces, if the bytes that it hands out are the encoding of a text.
-/
theorem exists_pieces (h : bytesOf items = Text.encode cs) :
    ∃ pieces, FallsInto items cs pieces := by
  -- Each piece is made of one item or more.
  induction hlength : items.length using Nat.strongRecOn generalizing items cs with
  | ind n ih =>
    subst hlength
    rcases cs with _ | ⟨ch, cs⟩
    · rcases items with _ | ⟨e | b, items⟩
      · exact ⟨[], List.forall_mem_nil _, rfl, rfl⟩
      · have hrest : bytesOf items = Text.encode [] := h
        obtain ⟨pieces, hpieces⟩ := ih items.length (Nat.lt_succ_self _) hrest rfl
        exact ⟨_, hpieces.cons (p := .failure e) trivial⟩
      · cases h
    · obtain ⟨more, hmore, rfl | ⟨_ | ⟨b, taken⟩, e, others, rfl, hothers, htaken⟩⟩ := split_items h
      · have hless : more.length <
            ((String.utf8EncodeChar ch).map .ok ++ more : List Item).length := by
          have hpos := ch.utf8Size_pos
          rw [List.length_append, List.length_map, String.length_utf8EncodeChar]
          omega
        obtain ⟨pieces, hpieces⟩ := ih more.length hless hmore rfl
        exact ⟨_, hpieces.cons (p := .whole ch) trivial⟩
      · -- A failure before the first byte leaves the character as it is.
        have hrest : bytesOf (others ++ more) = Text.encode (ch :: cs) := by
          rw [bytesOf_append, hmore]
          exact congrArg (· ++ Text.encode cs) htaken
        obtain ⟨pieces, hpieces⟩ := ih (others ++ more).length (Nat.lt_succ_self _) hrest rfl
        exact ⟨_, hpieces.cons (p := .failure e) trivial⟩
      · have hless : more.length <
            ((b :: taken).map .ok ++ .error e :: others ++ more : List Item).length := by
          rw [List.length_append, List.length_append, List.length_cons]
          omega
        obtain ⟨pieces, hpieces⟩ := ih more.length hless hmore rfl
        have hsound : (Piece.torn ch (b :: taken) e others).Sound :=
          ⟨List.cons_ne_nil b taken, hothers, htaken⟩
        exact ⟨_, hpieces.cons hsound⟩

/-! ### Taking characters -/

/-- Bytes that are handed out next, before what else the source does. -/
theorem handsOut_does (more : List Item) :
    HandsOut fun src bytes => src.Does (bytes.map .ok ++ more) :=
  fun _ _ _ h => nextByte_of_does h

/-- A failure that comes too early takes with it what was taken. -/
theorem finishCharacter_of_failure {n : Nat} {taken tail : List UInt8} {e : SourceError}
    (h : src.Does (tail.map .ok ++ .error e :: more)) (hless : tail.length < n)
    (htail : ∀ byte ∈ tail, Text.Utf8.isContinuation byte = true) :
    ∃ rest, finishCharacter n taken src = (.error e, rest) ∧ rest.Does more := by
  induction tail generalizing n taken src with
  | nil =>
    obtain ⟨n, rfl⟩ := Nat.exists_eq_succ_of_ne_zero (Nat.ne_of_gt hless)
    obtain ⟨rest, hnext, hrest⟩ := nextByte_of_does h
    exact ⟨rest, by rw [finishCharacter, hnext]; rfl, hrest⟩
  | cons byte tail ih =>
    obtain ⟨n, rfl⟩ := Nat.exists_eq_succ_of_ne_zero (Nat.ne_of_gt (Nat.zero_lt_of_lt hless))
    obtain ⟨hbyte, htail'⟩ := List.forall_mem_cons.mp htail
    obtain ⟨next, hnext, hdoes⟩ := nextByte_of_does h
    obtain ⟨rest, hfinish, hrest⟩ := ih hdoes (Nat.lt_of_succ_lt_succ hless) htail'
    refine ⟨rest, ?_, hrest⟩
    rw [finishCharacter, hnext]
    simp only [List.map_cons, List.cons_append, nextItem, hbyte, if_true]
    exact hfinish

/-- A failure between two characters is told, and the source goes on after it. -/
theorem nextCharacter_of_failure {e : SourceError} (h : src.Does (.error e :: more)) :
    ∃ rest, src.nextCharacter = (.error e, rest) ∧ rest.Does more := by
  obtain ⟨rest, hnext, hrest⟩ := nextByte_of_does h
  exact ⟨rest, by rw [nextCharacter, hnext]; rfl, hrest⟩

/-- After the last item there is nothing. -/
theorem nextCharacter_of_final (h : src.Does []) :
    ∃ rest, src.nextCharacter = (.ended, rest) := by
  obtain ⟨rest, hnext, -⟩ := nextByte_of_does h
  exact ⟨rest, by rw [nextCharacter, hnext]; rfl⟩

/-- A failure inside a character is told as well. What was taken of the character before is lost,
and what is left of it begins no character. -/
theorem nextCharacter_of_torn {taken others : List UInt8} {e : SourceError} (htaken : taken ≠ [])
    (hothers : others ≠ []) (hencode : taken ++ others = String.utf8EncodeChar ch)
    (h : src.Does (taken.map .ok ++ .error e :: more)) :
    (∃ rest, src.nextCharacter = (.error e, rest) ∧ rest.Does more) ∧
      ∀ byte ∈ others, Text.Utf8.isContinuation byte = true := by
  obtain ⟨first, tail, hfirst, hlength, htail, -⟩ := Text.Utf8.exists_encode_eq ch
  obtain ⟨lead, taken, rfl⟩ := List.exists_cons_of_ne_nil htaken
  rw [hfirst, List.cons_append, List.cons.injEq] at hencode
  obtain ⟨rfl, rfl⟩ := hencode
  obtain ⟨hbefore, hafter⟩ := List.forall_mem_append.mp htail
  refine ⟨?_, hafter⟩
  obtain ⟨next, hnext, hdoes⟩ := nextByte_of_does h
  -- More bytes are announced than have come.
  have hless : taken.length < Text.Utf8.sequenceLength lead - 1 := by
    have hpos := List.length_pos_iff.mpr hothers
    rw [hlength, List.length_append]
    omega
  obtain ⟨rest, hfinish, hrest⟩ := finishCharacter_of_failure hdoes hless hbefore
  refine ⟨rest, ?_, hrest⟩
  rw [nextCharacter, hnext]
  exact hfinish

/-- A byte that begins no character is malformed by itself. -/
theorem nextCharacter_of_stray (hbyte : Text.Utf8.isContinuation byte = true)
    (h : src.Does (.ok byte :: more)) :
    ∃ rest, src.nextCharacter = (.malformed, rest) ∧ rest.Does more := by
  obtain ⟨rest, hnext, hrest⟩ := nextByte_of_does h
  obtain ⟨hlength, hdecode⟩ := Text.Utf8.stray hbyte
  refine ⟨rest, ?_, hrest⟩
  rw [nextCharacter, hnext]
  simp only [nextItem, hlength, Nat.sub_self, finishCharacter, hdecode]

end Source

/-! ### Reading -/

namespace Cursor

open Source (Item Piece)

/-- What is told of an item inside a torn character. -/
def toldInside (offset : Nat) : Item → Told
  | .ok _ => (.error (malformedAt offset), offset)
  | .error e => (.error e, offset)

/-- What is told of a piece that comes at an offset. -/
def toldOf (offset : Nat) : Piece → List Told
  | .failure e => [(.error e, offset)]
  | .whole ch => [(.ok (some ch), offset + ch.utf8Size)]
  | .torn _ _ e others => (.error e, offset) :: others.map (toldInside offset)

/-- What is told of pieces one after another. -/
def toldOfAll (offset : Nat) : List Piece → List Told
  | [] => []
  | p :: pieces => toldOf offset p ++ toldOfAll (offset + Text.byteLength p.kept) pieces

variable {c : Cursor} {origin offset : Nat} {kept : List Char} {src : Source} {more : List Item}

/-- Reading once is reading out one answer. -/
theorem ReadsOut.single {d : Cursor} {answer : Except SourceError (Option Char)}
    (h : c.readChar = .ok (answer, d)) (hoffset : d.position = offset) :
    c.ReadsOut [(answer, offset)] d := by
  subst hoffset
  exact .cons h (.nil d)

namespace AtFrontier

/-- The cursor stands at the end of the text that it keeps. -/
theorem position_eq (h : c.AtFrontier origin kept src)
    (hoffset : origin + Text.byteLength kept = offset) : c.position = offset :=
  h.position.trans hoffset

/-- What remains of a torn character is told byte by byte. -/
theorem reads_inside (h : c.AtFrontier origin kept src)
    (hoffset : origin + Text.byteLength kept = offset) {others : List Item}
    (hothers : ∀ byte ∈ Source.bytesOf others, Text.Utf8.isContinuation byte = true)
    (hsrc : src.Does (others ++ more)) :
    ∃ d rest, c.ReadsOut (others.map (toldInside offset)) d ∧ d.AtFrontier origin kept rest ∧
      rest.Does more := by
  induction others generalizing c src with
  | nil => exact ⟨c, src, .nil c, h, hsrc⟩
  | cons item others ih =>
    rcases item with e | byte
    · obtain ⟨next, hnext, hdoes⟩ := Source.nextCharacter_of_failure hsrc
      obtain ⟨d, hread, hd⟩ := h.readChar_error hnext
      obtain ⟨e', rest, hreads, he, hrest⟩ := ih hd hothers hdoes
      exact ⟨e', rest, (ReadsOut.single hread (hd.position_eq hoffset)).append hreads, he, hrest⟩
    · obtain ⟨hbyte, hothers'⟩ := List.forall_mem_cons.mp hothers
      obtain ⟨next, hnext, hdoes⟩ := Source.nextCharacter_of_stray hbyte hsrc
      obtain ⟨d, hread, hd⟩ := h.readChar_malformed hnext
      rw [hoffset] at hread
      obtain ⟨e', rest, hreads, he, hrest⟩ := ih hd hothers' hdoes
      exact ⟨e', rest, (ReadsOut.single hread (hd.position_eq hoffset)).append hreads, he, hrest⟩

/-- What is read of a piece. -/
theorem reads_piece (h : c.AtFrontier origin kept src)
    (hoffset : origin + Text.byteLength kept = offset) {p : Piece} (hp : p.Sound)
    (hsrc : src.Does (p.items ++ more)) :
    ∃ d rest, c.ReadsOut (toldOf offset p) d ∧ d.AtFrontier origin (kept ++ p.kept) rest ∧
      rest.Does more := by
  cases p with
  | failure e =>
    obtain ⟨rest, hnext, hrest⟩ := Source.nextCharacter_of_failure hsrc
    obtain ⟨d, hread, hd⟩ := h.readChar_error hnext
    refine ⟨d, rest, ReadsOut.single hread (hd.position_eq hoffset), ?_, hrest⟩
    rwa [Piece.kept, List.append_nil]
  | whole ch =>
    have hbytes : src.Does ((String.utf8EncodeChar ch ++ []).map .ok ++ more) := by
      rwa [List.append_nil]
    obtain ⟨rest, hnext, hrest⟩ :=
      Source.nextCharacter_of_handsOut (Source.handsOut_does more) hbytes
    obtain ⟨d, hread, hd⟩ := h.readChar_character hnext
    have hoffset' : origin + Text.byteLength (kept ++ [ch]) = offset + ch.utf8Size := by
      rw [Text.byteLength_append, Text.byteLength_cons, Text.byteLength_nil]
      omega
    exact ⟨d, rest, ReadsOut.single hread (hd.position_eq hoffset'), hd, hrest⟩
  | torn ch taken e others =>
    obtain ⟨htaken, hothers, hencode⟩ := hp
    rw [Piece.items, List.append_assoc, List.cons_append] at hsrc
    -- The failure comes in the middle of a character, and what is left of that is stray bytes.
    obtain ⟨⟨next, hnext, hdoes⟩, htail⟩ :=
      Source.nextCharacter_of_torn htaken hothers hencode hsrc
    obtain ⟨d, hread, hd⟩ := h.readChar_error hnext
    obtain ⟨f, rest, hreads, hf, hrest⟩ := hd.reads_inside hoffset htail hdoes
    refine ⟨f, rest, (ReadsOut.single hread (hd.position_eq hoffset)).append hreads, ?_, hrest⟩
    rwa [Piece.kept, List.append_nil]

/-- What is read of pieces one after another. -/
theorem reads_pieces (h : c.AtFrontier origin kept src)
    (hoffset : origin + Text.byteLength kept = offset) {pieces : List Piece}
    (hpieces : ∀ p ∈ pieces, p.Sound) (hsrc : src.Does (pieces.flatMap Piece.items)) :
    ∃ d rest, c.ReadsOut (toldOfAll offset pieces) d ∧
      d.AtFrontier origin (kept ++ pieces.flatMap Piece.kept) rest ∧ rest.Does [] := by
  induction pieces generalizing c kept src offset with
  | nil => exact ⟨c, src, .nil c, by rwa [List.flatMap_nil, List.append_nil], hsrc⟩
  | cons p pieces ih =>
    obtain ⟨hp, hpieces'⟩ := List.forall_mem_cons.mp hpieces
    obtain ⟨d, next, hreads, hd, hdoes⟩ := h.reads_piece hoffset hp hsrc
    have hoffset' : origin + Text.byteLength (kept ++ p.kept) =
        offset + Text.byteLength p.kept := by
      rw [Text.byteLength_append]
      omega
    obtain ⟨f, rest, hreads', hf, hrest⟩ := ih hd hoffset' hpieces' hdoes
    refine ⟨f, rest, hreads.append hreads', ?_, hrest⟩
    rwa [List.flatMap_cons, ← List.append_assoc]

end AtFrontier

/-! ### Nothing torn -/

/-- What is told other than failures. -/
def answered (told : List Told) : List Told :=
  told.filter fun t => t.1.isOk

/-- The failures that are told. -/
def failed (told : List Told) : List SourceError :=
  told.filterMap fun t => Source.failure? t.1

variable {pieces : List Piece}

/-- Where nothing is torn, what is answered is the text. -/
theorem answered_of_untorn (h : ∀ p ∈ pieces, ¬p.Torn) (offset : Nat) :
    answered (toldOfAll offset pieces) = spelled offset (pieces.flatMap Piece.letters) := by
  induction pieces generalizing offset with
  | nil => rfl
  | cons p pieces ih =>
    obtain ⟨hp, hpieces⟩ := List.forall_mem_cons.mp h
    rw [toldOfAll, answered, List.filter_append, List.flatMap_cons, ← answered, ← answered,
      ih hpieces]
    cases p with
    | failure e => rfl
    | whole ch => rfl
    | torn => exact absurd trivial hp

/-- The failures that are told are those of the source. -/
theorem failed_of_untorn (h : ∀ p ∈ pieces, ¬p.Torn) (offset : Nat) :
    failed (toldOfAll offset pieces) =
      (pieces.flatMap Piece.items).filterMap Source.failure? := by
  induction pieces generalizing offset with
  | nil => rfl
  | cons p pieces ih =>
    obtain ⟨hp, hpieces⟩ := List.forall_mem_cons.mp h
    rw [toldOfAll, failed, List.filterMap_append, List.flatMap_cons, List.filterMap_append,
      ← failed, ← failed, ih hpieces]
    cases p with
    | failure e => rfl
    | whole ch =>
      -- There is no failure among the bytes of a character.
      have hnone : ((String.utf8EncodeChar ch).map Except.ok : List Item).filterMap
          Source.failure? = [] := by
        rw [List.filterMap_map]
        exact List.filterMap_eq_nil_iff.mpr fun _ _ => rfl
      rw [Piece.items, hnone]
      rfl
    | torn => exact absurd trivial hp

/-- No more characters are kept than are handed out. -/
theorem length_kept_le (pieces : List Piece) :
    (pieces.flatMap Piece.kept).length ≤ (pieces.flatMap Piece.letters).length := by
  induction pieces with
  | nil => exact Nat.le_refl 0
  | cons p pieces ih =>
    rw [List.flatMap_cons, List.flatMap_cons, List.length_append, List.length_append]
    cases p with
    | failure e => exact Nat.add_le_add_left ih 0
    | whole ch => exact Nat.add_le_add_left ih 1
    | torn => exact Nat.add_le_add (Nat.zero_le 1) ih

/-- All characters are kept if none is torn, and only then. -/
theorem kept_eq_letters_iff :
    pieces.flatMap Piece.kept = pieces.flatMap Piece.letters ↔ ∀ p ∈ pieces, ¬p.Torn := by
  induction pieces with
  | nil => exact ⟨fun _ => List.forall_mem_nil _, fun _ => rfl⟩
  | cons p pieces ih =>
    rw [List.flatMap_cons, List.flatMap_cons, List.forall_mem_cons, ← ih]
    cases p with
    | failure e => simp [Piece.kept, Piece.letters, Piece.Torn]
    | whole ch => simp [Piece.kept, Piece.letters, Piece.Torn]
    | torn ch =>
      -- One character is missing, and no other can make up for it.
      constructor
      · intro heq
        have hlength := congrArg List.length heq
        have hle := length_kept_le pieces
        simp only [Piece.kept, Piece.letters, List.nil_append, List.length_append,
          List.length_singleton] at hlength
        omega
      · rintro ⟨huntorn, -⟩
        exact absurd trivial huntorn

end Cursor

open Cursor in
/-- Reading on after failures. What a source does, if the bytes that it hands out are the encoding
of a text, falls into characters, characters with a failure inside them, and failures elsewhere. A
cursor that reads to the end of input tells the characters, each with the offset after it, and the
failures, all in the order in which they come; and of a torn character it tells the failure, and
what remains of it byte by byte, as malformed. So all characters are told if none is torn, and only
then. If none is, they are told as they would be without the failures, and each failure is told
once. -/
theorem reading_on_after_failures (src : Source) (cs : List Char) (origin : Nat) (c : Cursor)
    (hfinal : .pause ∉ src) (hbytes : src.bytes = Text.encode cs) (hc : c.StartsOn src origin) :
    ∃ pieces, Source.FallsInto src.items cs pieces ∧
      ∃ d, c.ReadsOut (toldOfAll origin pieces) d ∧ (∃ e, d.readChar = .ok (.ok none, e)) ∧
        d.text = pieces.flatMap Source.Piece.kept ∧ (d.text = cs ↔ ∀ p ∈ pieces, ¬p.Torn) ∧
        ((∀ p ∈ pieces, ¬p.Torn) → answered (toldOfAll origin pieces) = spelled origin cs ∧
          failed (toldOfAll origin pieces) = src.items.filterMap Source.failure?) := by
  have hletters : Source.bytesOf src.items = Text.encode cs :=
    (Source.bytesOf_items hfinal).trans hbytes
  obtain ⟨pieces, hpieces⟩ := Source.exists_pieces hletters
  have hdoes : src.Does (pieces.flatMap Source.Piece.items) := ⟨hfinal, hpieces.items.symm⟩
  obtain ⟨d, rest, hreads, hd, hrest⟩ :=
    hc.atFrontier.reads_pieces (Nat.add_zero origin) hpieces.sound hdoes
  obtain ⟨after, hended⟩ := Source.nextCharacter_of_final hrest
  obtain ⟨e, hlast, -⟩ := hd.readChar_ended hended
  refine ⟨pieces, hpieces, d, hreads, ⟨e, hlast⟩, hd.text, ?_, fun huntorn => ⟨?_, ?_⟩⟩
  · rw [hd.text, List.nil_append, ← hpieces.letters]
    exact kept_eq_letters_iff
  · rw [answered_of_untorn huntorn, hpieces.letters]
  · rw [failed_of_untorn huntorn, hpieces.items]

/-- A source of two letters, with a failure between them and another inside the second. -/
def tornLetter : Source :=
  [.data [0x61], .error ⟨.brokenPipe, "early"⟩, .data [0xc3], .error ⟨.timedOut, "late"⟩,
    .data [0xa9]]

/-- Of two letters the torn one is lost, and what is told is as described. -/
theorem reading_on_after_failures_letter :
    ∃ pieces, Source.FallsInto tornLetter.items "aé".toList pieces ∧
      ∃ d, (Cursor.ofSource tornLetter 0).ReadsOut (Cursor.toldOfAll 0 pieces) d := by
  have hfinal : .pause ∉ tornLetter := by simp [tornLetter]
  obtain ⟨pieces, hpieces, d, hreads, -⟩ :=
    reading_on_after_failures tornLetter "aé".toList 0 _ hfinal rfl (.ofSource 0)
  exact ⟨pieces, hpieces, d, hreads⟩

/-- The second letter is not read, though all of its bytes are handed out. -/
theorem torn_character_is_lost :
    tornLetter.bytes = Text.encode "aé".toList ∧
      ∃ d, (Cursor.ofSource tornLetter 0).ReadsOut
          [(.ok (some 'a'), 1), (.error ⟨.brokenPipe, "early"⟩, 1), (.error ⟨.timedOut, "late"⟩, 1),
            (.error (Cursor.malformedAt 1), 1)] d ∧
        d.text = ['a'] ∧ ∃ e, d.readChar = .ok (.ok none, e) := by
  have hfinal : .pause ∉ tornLetter := by simp [tornLetter]
  have hsound : ∀ p ∈ [.whole 'a', .failure ⟨.brokenPipe, "early"⟩,
      .torn 'é' [0xc3] ⟨.timedOut, "late"⟩ [.ok 0xa9]], Source.Piece.Sound p := by
    refine List.forall_mem_cons.mpr ⟨trivial, List.forall_mem_cons.mpr ⟨trivial, ?_⟩⟩
    exact List.forall_mem_singleton.mpr ⟨by decide, by decide, by decide⟩
  obtain ⟨d, rest, hreads, hd, hrest⟩ :=
    (Cursor.StartsOn.ofSource 0).atFrontier.reads_pieces rfl hsound ⟨hfinal, rfl⟩
  obtain ⟨after, hended⟩ := Source.nextCharacter_of_final hrest
  obtain ⟨e, hlast, -⟩ := hd.readChar_ended hended
  exact ⟨rfl, d, hreads, hd.text, e, hlast⟩

end ParseTrail
