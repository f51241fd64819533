import ParseTrail.Proofs.Cursor.Extension
import ParseTrail.Proofs.Cursor.Undisturbed

/-!
# Cursors within limits

Nothing compares an offset with its limit, or the number of a line, while a cursor moves. As long as
every byte that the cursor keeps or may still pull has an offset, there is no need to: no operation
makes more bytes, so that no offset past the limit is ever come to.

- `Source.bytes_nextCharacter`: a source hands out no more after a character was taken;
- `outlasts_withinLimits`, `WithinLimits.perform`: operations keep cursors within limits;
- `WithinLimits.position_lt`: cursors within limits stand at offsets below the limit.
-/

namespace ParseTrail

/-! ### Sources -/

namespace Source

variable {src rest : Source}

/-- What a source hands out after a byte was taken is an end of what it handed out before. -/
theorem bytes_nextByte (src : Source) : src.nextByte.2.bytes <:+ src.bytes := by
  induction src with
  | nil => exact List.suffix_refl _
  | cons event src ih =>
    cases event with
    | data piece =>
      rcases piece with _ | ⟨first, piece⟩
      · exact ih
      · exact List.suffix_cons first _
    | error e =>
      rw [nextByte]
      split
      · exact ih
      · exact List.suffix_refl _
    | pause => exact List.suffix_refl _

/-- So it is after the other bytes of a character were taken. -/
theorem bytes_finishCharacter (n : Nat) (taken : List UInt8) (src : Source) :
    (finishCharacter n taken src).2.bytes <:+ src.bytes := by
  induction n generalizing taken src with
  | zero =>
    rw [finishCharacter]
    split <;> exact List.suffix_refl _
  | succ n ih =>
    have hnext := bytes_nextByte src
    rw [finishCharacter]
    split
    · next heq => rwa [heq] at hnext
    · next heq => rwa [heq] at hnext
    · next byte mid heq =>
      rw [heq] at hnext
      split
      · exact (ih _ mid).trans hnext
      · exact hnext

/-- And so it is after a whole character was taken, or bytes that encode none. -/
theorem bytes_nextCharacter (src : Source) : src.nextCharacter.2.bytes <:+ src.bytes := by
  have hnext := bytes_nextByte src
  rw [nextCharacter]
  split
  · next heq => rwa [heq] at hnext
  · next heq => rwa [heq] at hnext
  · next heq =>
    rw [heq] at hnext
    exact (bytes_finishCharacter _ _ _).trans hnext

end Source

/-! ### Cursors -/

namespace Cursor

variable {c d : Cursor}

/-- The number of bytes that the source may still hand out. -/
def unpulled (c : Cursor) : Nat :=
  match c.source with
  | none => 0
  | some src => src.bytes.length

/-- The number of bytes that the cursor keeps or may still pull. -/
def extent (c : Cursor) : Nat :=
  c.buffered + c.unpulled

/-- All that the cursor keeps or may still pull can be counted: there are offsets for the bytes and
for the end after them, and numbers for the lines and the columns that they may make. -/
structure WithinLimits (c : Cursor) : Prop where
  offsets : c.origin + c.extent < offsetLimit
  numbers : c.linesReleased + c.extent + 2 < offsetLimit

/-- What is pulled from the source is kept from then on, unless it encodes no character. -/
theorem extent_fill_le (c : Cursor) : c.fill.2.extent ≤ c.extent := by
  unfold fill
  rcases hsrc : c.source with _ | src
  · exact Nat.le_refl _
  · have hbytes := (Source.bytes_nextCharacter src).length_le
    simp only
    rcases hnext : src.nextCharacter with ⟨ch | _ | _ | err, rest⟩ <;> rw [hnext] at hbytes
    · -- The bytes of the character move over from the source to the text kept.
      have hhands := congrArg List.length (Source.hands_of_nextCharacter hnext).bytes_eq
      rw [List.length_append, String.length_utf8EncodeChar] at hhands
      simp only [extent, unpulled, buffered, hsrc, Text.byteLength_append, Text.byteLength_cons,
        Text.byteLength_nil]
      omega
    · simp only [extent, unpulled, buffered, hsrc]
      omega
    · simpa only [extent, unpulled, buffered, hsrc, Nat.add_le_add_iff_left] using hbytes
    · simpa only [extent, unpulled, buffered, hsrc, Nat.add_le_add_iff_left] using hbytes

namespace WithinLimits

/-- To pull a character keeps a cursor within limits, since the bytes only change places. -/
theorem fill (h : c.WithinLimits) : c.fill.2.WithinLimits := by
  have horigin : c.fill.2.origin = c.origin ∧ c.fill.2.linesReleased = c.linesReleased := by
    unfold Cursor.fill
    rcases c.source with _ | src
    · exact ⟨rfl, rfl⟩
    · simp only
      rcases src.nextCharacter with ⟨ch | _ | _ | err, rest⟩ <;> exact ⟨rfl, rfl⟩
  have hextent := extent_fill_le c
  have hoffsets := h.offsets
  have hnumbers := h.numbers
  constructor
  · omega
  · omega

end WithinLimits

/-- To be within limits outlasts all operations that release nothing. It does not depend on where
the cursor stands. -/
theorem outlasts_withinLimits : Outlasts fun c d => c.WithinLimits → d.WithinLimits where
  refl _ := id
  trans _ _ _ hcd hde h := hde (hcd h)
  fill _ := WithinLimits.fill
  advance _ h := ⟨h.offsets, h.numbers⟩
  withIndex _ _ _ hcd _ h := ⟨(hcd h).offsets, (hcd h).numbers⟩
  back _ _ hcd h := ⟨(hcd h).offsets, (hcd h).numbers⟩

namespace WithinLimits

theorem openScope (h : c.WithinLimits) : c.openScope.WithinLimits :=
  ⟨h.offsets, h.numbers⟩

theorem closeScope (h : c.WithinLimits) : c.closeScope.WithinLimits :=
  ⟨h.offsets, h.numbers⟩

/-- Releasing text counts its lines, which are no more than its bytes. -/
theorem release (h : c.WithinLimits) : c.release.WithinLimits := by
  have hoffsets := h.offsets
  have hnumbers := h.numbers
  unfold Cursor.release
  by_cases hscope : c.scopes > 0
  · rw [if_pos hscope]
    exact h
  · obtain ⟨pre, post, htext, -, hstart⟩ := Text.exists_lineBounds_fst_eq c.text c.index
    have hnewlines : Text.newlines pre ≤ pre.length := List.count_le_length
    have hlength := Text.length_le_byteLength pre
    rw [if_neg hscope, hstart]
    simp only [extent, buffered, htext, Text.byteLength_append] at hoffsets hnumbers
    constructor
    all_goals
      simp only [extent, unpulled, buffered, htext, Text.dropBytes?_byteLength_append,
        Option.getD_some, Text.startingBefore_byteLength_append]
      simp only [unpulled] at hoffsets hnumbers
      omega

/-- Every operation keeps a cursor within limits. -/
theorem perform (h : c.WithinLimits) (r : Request) {reply : r.Reply}
    (hd : c.perform r = .ok (reply, d)) : d.WithinLimits := by
  by_cases hr : r = .release
  · subst hr
    cases hd
    exact h.release
  · exact outlasts_withinLimits.perform hr hd h

/-- The end of the text kept has an offset. -/
theorem end_lt (h : c.WithinLimits) : c.origin + c.buffered < offsetLimit := by
  have hoffsets := h.offsets
  rw [extent] at hoffsets
  omega

/-- The cursor stands at an offset, if it stands in the text kept. -/
theorem position_lt (h : c.WithinLimits) (hc : c.InBounds) : c.position < offsetLimit :=
  Nat.lt_of_le_of_lt (Nat.add_le_add_left hc _) h.end_lt

end WithinLimits

end Cursor

end ParseTrail
