import ParseTrail.Proofs.Cursor.Extension

/-!
# Reading forward

Reading moves a cursor forward and leaves its origin alone. Looking ahead does not move it, and
going back moves it to the offset asked for. None of this needs the cursor to stand within the text
kept.

- `Ahead.read`, `Ahead.readChar`: how reading moves a cursor;
- `position_peek`, `position_atEnd`, `position_returnTo`: where it stands after the others.
-/

namespace ParseTrail.Cursor

/-- The cursor `d` has the origin of `c`, and stands where `c` does or after. -/
structure Ahead (c d : Cursor) : Prop where
  origin : d.origin = c.origin
  index_le : c.index ≤ d.index

variable {c d : Cursor} {n offset : Nat}

/-- To pull a character leaves the start of the text kept. -/
theorem origin_fill (c : Cursor) : c.fill.2.origin = c.origin := by
  -- What is pulled from the source is put after the text kept.
  unfold fill
  rcases c.source with _ | src
  · rfl
  · simp only
    rcases src.nextCharacter with ⟨ch | _ | _ | err, rest⟩ <;> rfl

/-- It leaves the cursor where it stands. -/
theorem position_fill (c : Cursor) : c.fill.2.position = c.position := by
  rw [position, position, origin_fill, fill_index]

/-- So does every operation that only pulls characters. -/
theorem persists_position : Persists fun c d => d.position = c.position where
  refl _ := rfl
  trans _ _ _ hcd hde := hde.trans hcd
  fill := position_fill

namespace Ahead

/-- A cursor is not behind itself. -/
theorem refl (c : Cursor) : c.Ahead c :=
  ⟨rfl, Nat.le_refl _⟩

/-- What is ahead of something ahead is ahead. -/
theorem trans {e : Cursor} (hcd : c.Ahead d) (hde : d.Ahead e) : c.Ahead e :=
  ⟨hde.origin.trans hcd.origin, Nat.le_trans hcd.index_le hde.index_le⟩

/-- What is ahead stands at no smaller offset. -/
theorem position_le (h : c.Ahead d) : c.position ≤ d.position := by
  rw [position, position, h.origin]
  exact Nat.add_le_add_left h.index_le _

/-- Pulling a character. -/
theorem fill (c : Cursor) : c.Ahead c.fill.2 :=
  ⟨origin_fill c, Nat.le_of_eq (fill_index c).symm⟩

/-- Moving over one that is kept. -/
theorem advance (c : Cursor) : c.Ahead c.advance :=
  ⟨rfl, Nat.le_add_right _ _⟩

/-- So a cursor gets ahead by all that is done character by character. -/
theorem persists : Persists Ahead where
  refl := refl
  trans _ _ _ := trans
  fill := fill

/-- Reading characters. -/
theorem read {reply : Except SourceError (List Char)} (h : c.read n = .ok (reply, d)) :
    c.Ahead d :=
  persists.read advance h

/-- Reading one. -/
theorem readChar {reply : Except SourceError (Option Char)}
    (h : c.readChar = .ok (reply, d)) : c.Ahead d :=
  persists.readChar advance h

end Ahead

/-! ### Standing still and going back -/

/-- Looking ahead does not move the cursor, unless the source fails. -/
theorem position_peek {found : List Char} (h : c.peek n = .ok (.ok found, d)) :
    d.position = c.position := by
  unfold peek at h
  cases hread : c.read n with
  | error cause =>
    rw [hread] at h
    cases h
  | ok told =>
    obtain ⟨err | chars, e⟩ := told
    · rw [hread] at h
      cases h
    · -- The index is put back to where it was, and the origin has not changed.
      rw [hread] at h
      cases h
      rw [position, position, (Ahead.read hread).origin]

/-- To ask for the end of input moves nothing. -/
theorem position_atEnd (c : Cursor) : c.atEnd.2.position = c.position :=
  persists_position.atEnd c

/-- Going back leads to the offset that was asked for. -/
theorem position_returnTo (h : c.returnTo offset = .ok d) : d.position = offset := by
  unfold returnTo moveTo at h
  by_cases hin : c.origin ≤ offset ∧ offset - c.origin ≤ c.buffered
  · rw [if_pos hin] at h
    cases h
    exact Nat.add_sub_cancel' hin.1
  · rw [if_neg hin] at h
    cases h

end ParseTrail.Cursor
