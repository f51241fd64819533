import ParseTrail.Cursor
import ParseTrail.Proofs.Text.Offset

/-!
# Reading at the frontier

A cursor that is only ever read from stands at the end of the text it keeps. There, what it reads
next is what its source gives next, and what it keeps is what it has read.

- `ReadsOut`, `spelled`: characters are read one after another, and what is told of those of a text;
- `AtFrontier.readChar_character` and its companions: what is read next, by what the source gives.
-/

namespace ParseTrail.Cursor

/-- What is told when a character is asked for, and the offset of the cursor after that. -/
abbrev Told : Type := Except SourceError (Option Char) × Nat

/-- A character is asked for again and again, and this is told. -/
inductive ReadsOut : Cursor → List Told → Cursor → Prop
  | nil (c : Cursor) : ReadsOut c [] c
  | cons {c d e : Cursor} {answer : Except SourceError (Option Char)} {told : List Told} :
    c.readChar = .ok (answer, d) → ReadsOut d told e → ReadsOut c ((answer, d.position) :: told) e

/-- What is told of the characters of a text that lies at an offset. -/
def spelled (offset : Nat) : List Char → List Told
  | [] => []
  | ch :: cs => (.ok (some ch), offset + ch.utf8Size) :: spelled (offset + ch.utf8Size) cs

/-- A cursor at the start of a source, at any offset, or one that asks for any number of bytes at a
time. Nothing says that there are offsets for all of the source, as what is read does not depend on
it. -/
inductive StartsOn (src : Source) : Nat → Cursor → Prop
  | ofSource (origin : Nat) : StartsOn src origin (.ofSource src origin)
  | ofReader {capacity : Nat} {c : Cursor} :
    Cursor.ofReader capacity src = .ok c → StartsOn src 0 c

/-- The cursor has read all of the text it keeps, and its source goes on with `src`. -/
structure AtFrontier (origin : Nat) (kept : List Char) (src : Source) (c : Cursor) : Prop where
  origin : c.origin = origin
  text : c.text = kept
  index : c.index = Text.byteLength kept
  source : c.source = some src

variable {c d e : Cursor} {origin : Nat} {kept : List Char} {src rest : Source}

theorem ReadsOut.append {told more : List Told} (h : c.ReadsOut told d) (h' : d.ReadsOut more e) :
    c.ReadsOut (told ++ more) e := by
  induction h with
  | nil _ => exact h'
  | cons hread _ ih => exact .cons hread (ih h')

theorem StartsOn.atFrontier (h : c.StartsOn src origin) : c.AtFrontier origin [] src := by
  cases h with
  | ofSource => exact ⟨rfl, rfl, rfl, rfl⟩
  | ofReader hc =>
    -- The number of bytes asked for makes no difference to the cursor.
    rw [Cursor.ofReader] at hc
    split at hc
    · cases hc
    · cases hc
      exact ⟨rfl, rfl, rfl, rfl⟩

namespace AtFrontier

theorem position (h : c.AtFrontier origin kept src) :
    c.position = origin + Text.byteLength kept := by
  rw [Cursor.position, h.origin, h.index]

theorem index_eq_buffered (h : c.AtFrontier origin kept src) : c.index = c.buffered := by
  rw [h.index, buffered, h.text]

/-- A character is read, and then belongs to the text kept. -/
theorem readChar_character (h : c.AtFrontier origin kept src) {ch : Char}
    (hnext : src.nextCharacter = (.character ch, rest)) :
    ∃ d, c.readChar = .ok (.ok (some ch), d) ∧ d.AtFrontier origin (kept ++ [ch]) rest := by
  have hslice := Text.slice?_append kept [ch] []
  have hstep := Text.stepLength_byteLength_append kept ch []
  simp only [Text.byteLength_cons, Text.byteLength_nil, Nat.add_zero, List.append_nil] at hslice
  refine ⟨{ c with
      text := kept ++ [ch], index := Text.byteLength kept + ch.utf8Size, source := some rest },
    ?_, h.origin, rfl, ?_, rfl⟩
  · rw [readChar, step, if_pos h.index_eq_buffered, fill, h.source]
    simp only [hnext, advance, h.text, h.index, hstep, hslice, List.head?_cons]
  · simp only [Text.byteLength_append, Text.byteLength_cons, Text.byteLength_nil, Nat.add_zero]

/-- The end of the source is the end of input. -/
theorem readChar_ended (h : c.AtFrontier origin kept src)
    (hnext : src.nextCharacter = (.ended, rest)) :
    ∃ d, c.readChar = .ok (.ok none, d) ∧ d.text = kept ∧
      d.position = origin + Text.byteLength kept := by
  refine ⟨{ c with source := none }, ?_, h.text, h.position⟩
  rw [readChar, step, if_pos h.index_eq_buffered, fill, h.source]
  simp only [hnext]

/-- Bytes that encode no character are told with the offset at which they begin. -/
theorem readChar_malformed (h : c.AtFrontier origin kept src)
    (hnext : src.nextCharacter = (.malformed, rest)) :
    ∃ d, c.readChar = .ok (.error (malformedAt (origin + Text.byteLength kept)), d) ∧
      d.AtFrontier origin kept rest := by
  refine ⟨{ c with source := some rest }, ?_, h.origin, h.text, h.index, rfl⟩
  rw [readChar, step, if_pos h.index_eq_buffered, fill, h.source]
  simp only [hnext, buffered, h.origin, h.text]

/-- A failure of the source is told as it is. -/
theorem readChar_error (h : c.AtFrontier origin kept src) {err : SourceError}
    (hnext : src.nextCharacter = (.error err, rest)) :
    ∃ d, c.readChar = .ok (.error err, d) ∧ d.AtFrontier origin kept rest := by
  refine ⟨{ c with source := some rest }, ?_, h.origin, h.text, h.index, rfl⟩
  rw [readChar, step, if_pos h.index_eq_buffered, fill, h.source]
  simp only [hnext]

end AtFrontier

end ParseTrail.Cursor
