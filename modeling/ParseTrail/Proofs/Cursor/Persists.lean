import ParseTrail.Cursor.Request
import ParseTrail.Proofs.Text.Offset

/-!
# Pulling characters

All that an operation pulls from the source, it pulls one character at a time, and between two
characters it may move over the first. So whatever a single character leaves alone is left alone by
all operations that look at what comes next:

- `Persists.step`, `Persists.skip`: moving over characters;
- `Persists.atEnd`, `Persists.fillUntil`, `Persists.lineAt`: looking at what comes, without moving.

What is also left alone when the cursor moves within the text kept outlasts every operation that
releases nothing:

- `Outlasts.perform`: every operation but one.
-/

namespace ParseTrail.Cursor

/-- A relation between a cursor and what becomes of it that holds however many characters are
pulled. -/
structure Persists (R : Cursor → Cursor → Prop) : Prop where
  refl : ∀ c, R c c
  trans : ∀ c d e, R c d → R d e → R c e
  fill : ∀ c : Cursor, R c c.fill.2

/-- A relation that persists and does not depend on where in the text kept the cursor stands. -/
structure Outlasts (R : Cursor → Cursor → Prop) : Prop extends Persists R where
  advance : ∀ c : Cursor, R c c.advance
  withIndex : ∀ (c d : Cursor) (n : Nat), R c d → n ≤ d.buffered → R c { d with index := n }
  /-- The cursor may go back to where it stood. -/
  back : ∀ c d : Cursor, R c d → R c { d with index := c.index }

variable {R : Cursor → Cursor → Prop} {c d : Cursor} {n offset : Nat}

namespace Persists

/-- Moving over one character, where moving over a character that is kept is allowed. -/
theorem step (hR : Persists R) (hadvance : ∀ c : Cursor, R c c.advance) (c : Cursor) :
    R c c.step.2 := by
  unfold Cursor.step
  by_cases hend : c.index = c.buffered
  · rw [if_pos hend]
    have hfill := hR.fill c
    generalize c.fill = filled at hfill ⊢
    -- The cursor moves only where there is a character to move over.
    rcases filled with ⟨err | _ | _, d⟩
    · exact hfill
    · exact hfill
    · exact hR.trans _ _ _ hfill (hadvance d)
  · rw [if_neg hend]
    exact hadvance c

/-- Moving over several characters. -/
theorem skip (hR : Persists R) (hadvance : ∀ c : Cursor, R c c.advance) (n : Nat) (c : Cursor) :
    R c (c.skip n).2 := by
  induction n generalizing c with
  | zero => exact hR.refl c
  | succ n ih =>
    have hstep := hR.step hadvance c
    unfold Cursor.skip
    generalize c.step = stepped at hstep ⊢
    rcases stepped with ⟨err | _ | _, d⟩
    · exact hstep
    · exact hstep
    · exact hR.trans _ _ _ hstep (ih d)

/-- What is read is cut from the text kept after moving over it, which changes nothing more. -/
theorem read (hR : Persists R) (hadvance : ∀ c : Cursor, R c c.advance)
    {reply : Except SourceError (List Char)} (h : c.read n = .ok (reply, d)) : R c d := by
  have hskip := hR.skip hadvance n c
  unfold Cursor.read at h
  generalize c.skip n = skipped at hskip h
  rcases skipped with ⟨err | _, e⟩
  · cases h
    exact hskip
  · simp only at h
    split at h
    · cases h
      exact hskip
    · cases h

/-- Reading one character is moving over it as well. -/
theorem readChar (hR : Persists R) (hadvance : ∀ c : Cursor, R c c.advance)
    {reply : Except SourceError (Option Char)} (h : c.readChar = .ok (reply, d)) : R c d := by
  have hstep := hR.step hadvance c
  unfold Cursor.readChar at h
  generalize c.step = stepped at hstep h
  rcases stepped with ⟨err | _ | _, e⟩
  · cases h
    exact hstep
  · cases h
    exact hstep
  · simp only at h
    split at h
    · cases h
      exact hstep
    · cases h

/-- Asking whether input is left pulls one character at most. -/
theorem atEnd (hR : Persists R) (c : Cursor) : R c c.atEnd.2 := by
  unfold Cursor.atEnd
  by_cases hin : c.index < c.buffered
  · rw [if_pos hin]
    exact hR.refl c
  · rw [if_neg hin]
    have hfill := hR.fill c
    generalize c.fill = filled at hfill ⊢
    rcases filled with ⟨err | more, d⟩ <;> exact hfill

/-- Pulling characters until one of them is the last that is wanted. -/
theorem fillUntil (hR : Persists R) (stop : Char → Bool) (n : Nat) (c : Cursor) :
    R c (c.fillUntil stop n).2 := by
  induction n generalizing c with
  | zero => exact hR.refl c
  | succ n ih =>
    have hfill := hR.fill c
    unfold Cursor.fillUntil
    generalize c.fill = filled at hfill ⊢
    rcases filled with ⟨err | _ | _, d⟩
    · exact hfill
    · exact hfill
    · by_cases hstop : d.text.getLast?.any stop
      · simp only [if_pos hstop]
        exact hfill
      · simp only [if_neg hstop]
        exact hR.trans _ _ _ hfill (ih d)

/-- Looking at the line of an offset pulls what is missing of it. -/
theorem lineAt (hR : Persists R) (offset : Nat) (c : Cursor) : R c (c.lineAt offset).2 := by
  have hcomplete : R c (c.completeLine (c.clamp offset)).2 := by
    unfold Cursor.completeLine
    by_cases hline : ((Text.dropBytes? (c.clamp offset) c.text).getD []).contains '\n'
    · rw [if_pos hline]
      exact hR.refl c
    · rw [if_neg hline]
      exact hR.fillUntil _ _ c
  -- Looking at the line changes nothing once it is complete.
  unfold Cursor.lineAt
  generalize c.completeLine (c.clamp offset) = completed at hcomplete ⊢
  rcases completed with ⟨err | _, d⟩ <;> exact hcomplete

end Persists

/-! ### Inversions -/

/-- An answer that was converted comes from an answer. -/
theorem exists_of_map_eq_ok {ε α β : Type} {f : α → β} {x : Except ε α} {b : β}
    (h : x.map f = .ok b) : ∃ a, x = .ok a ∧ f a = b := by
  rcases x with e | a
  · cases h
  · exact ⟨a, rfl, Except.ok.inj h⟩

/-- To ask for characters to be unread is to unread them. -/
theorem restore_of_perform {reply : Unit} (h : c.perform (.restore n) = .ok (reply, d)) :
    c.restore n = .ok d := by
  obtain ⟨e, hback, heq⟩ := exists_of_map_eq_ok h
  cases heq
  exact hback

/-- To ask for a move to an offset is to make it. -/
theorem restoreTo_of_perform {reply : Unit}
    (h : c.perform (.restoreTo offset) = .ok (reply, d)) : c.restoreTo offset = .ok d := by
  obtain ⟨e, hback, heq⟩ := exists_of_map_eq_ok h
  cases heq
  exact hback

/-- To count a column does not move the cursor. -/
theorem column_of_perform {column : Nat} (h : c.perform .column = .ok (column, d)) :
    c.column = .ok column ∧ d = c := by
  obtain ⟨n, hcolumn, heq⟩ := exists_of_map_eq_ok h
  cases heq
  exact ⟨hcolumn, rfl⟩

/-! ### Moving within the text kept -/

namespace Outlasts

/-- Each character that is unread takes the cursor back within the text kept. -/
theorem restore (hR : Outlasts R) (n : Nat) (h : c.restore n = .ok d) : R c d := by
  induction n generalizing c with
  | zero =>
    cases h
    exact hR.refl _
  | succ n ih =>
    rw [Cursor.restore] at h
    by_cases hzero : c.index = 0
    · rw [if_pos hzero] at h
      cases h
    · rw [if_neg hzero] at h
      have hback := hR.withIndex c c _ (hR.refl c)
        (Text.floorBoundary_le_byteLength c.text (c.index - 1))
      exact hR.trans _ _ _ hback (ih h)

/-- A move to an offset that is kept. -/
theorem moveTo (hR : Outlasts R) {outside : Nat → Nat → Nat → Fault}
    (h : c.moveTo outside offset = .ok d) : R c d := by
  rw [Cursor.moveTo] at h
  by_cases hin : c.origin ≤ offset ∧ offset - c.origin ≤ c.buffered
  · rw [if_pos hin] at h
    cases h
    exact hR.withIndex c c _ (hR.refl c) hin.2
  · rw [if_neg hin] at h
    cases h

/-- Moving over characters until an offset is reached. -/
theorem skipTo (hR : Outlasts R) (offset n : Nat) (c : Cursor) : R c (c.skipTo offset n).2 := by
  induction n generalizing c with
  | zero => exact hR.refl c
  | succ n ih =>
    have hstep := hR.step hR.advance c
    unfold Cursor.skipTo
    by_cases hbefore : c.position < offset
    · rw [if_pos hbefore]
      generalize c.step = stepped at hstep ⊢
      rcases stepped with ⟨err | _ | _, d⟩
      · exact hstep
      · exact hstep
      · exact hR.trans _ _ _ hstep (ih d)
    · rw [if_neg hbefore]
      exact hR.refl c

/-- Seeking to an offset, which may lie before, within or past the text kept. -/
theorem seekTo (hR : Outlasts R) (offset : Nat) (c : Cursor) : R c (c.seekTo offset).2 := by
  unfold Cursor.seekTo
  by_cases hstart : offset < c.origin
  · rw [if_pos hstart]
    exact hR.refl c
  · rw [if_neg hstart]
    by_cases hkept : offset - c.origin ≤ c.buffered
    · rw [if_pos hkept]
      split
      · exact hR.withIndex c c _ (hR.refl c) hkept
      · exact hR.refl c
    · rw [if_neg hkept]
      -- Past the text kept, the cursor first moves to the end of it and reads on from there.
      have hmoved := hR.withIndex c c _ (hR.refl c) (Nat.le_refl c.buffered)
      have hskip := hR.trans _ _ _ hmoved
        (hR.skipTo offset (offset - c.origin - c.buffered) { c with index := c.buffered })
      generalize Cursor.skipTo offset (offset - c.origin - c.buffered)
        { c with index := c.buffered } = skipped at hskip ⊢
      rcases skipped with ⟨err | _, d⟩ <;> exact hskip

/-- Seeking to a target, however it is told. -/
theorem seek (hR : Outlasts R) (target : SeekTarget) (c : Cursor) : R c (c.seek target).2 := by
  rcases target with offset | distance | distance
  · exact hR.seekTo offset c
  · unfold Cursor.seek
    simp only
    rcases offsetBy c.position distance with err | offset
    · exact hR.refl c
    · exact hR.seekTo offset c
  · -- From the end: all of the input is read first.
    have hfill := hR.fillUntil (fun _ => false) c.pending c
    unfold Cursor.seek
    simp only
    generalize Cursor.fillUntil (fun _ => false) c.pending c = filled at hfill ⊢
    rcases filled with ⟨err | _, d⟩
    · exact hfill
    · simp only
      rcases offsetBy (d.origin + d.buffered) distance with err | offset
      · exact hfill
      · exact hR.trans _ _ _ hfill (hR.seekTo offset d)

/-- Looking at characters is reading them and going back. -/
theorem peek (hR : Outlasts R) {reply : Except SourceError (List Char)}
    (h : c.peek n = .ok (reply, d)) : R c d := by
  unfold Cursor.peek at h
  rcases hread : c.read n with cause | ⟨err | chars, e⟩
  · rw [hread] at h
    cases h
  · rw [hread] at h
    cases h
    exact hR.read hR.advance hread
  · rw [hread] at h
    cases h
    exact hR.back c e (hR.read hR.advance hread)

/-- Every operation that releases nothing. -/
theorem perform (hR : Outlasts R) {r : Request} (hr : r ≠ .release) {reply : r.Reply}
    (h : c.perform r = .ok (reply, d)) : R c d := by
  cases r with
  | read n => exact hR.read hR.advance h
  | readChar => exact hR.readChar hR.advance h
  | peek n => exact hR.peek h
  | atEnd =>
    have hsnd : c.atEnd.2 = d := congrArg Prod.snd (Except.ok.inj h)
    exact hsnd ▸ hR.atEnd c
  | restore n => exact hR.restore n (restore_of_perform h)
  | restoreTo offset => exact hR.moveTo (restoreTo_of_perform h)
  | seek target =>
    have hsnd : (c.seek target).2 = d := congrArg Prod.snd (Except.ok.inj h)
    exact hsnd ▸ hR.seek target c
  | release => exact absurd rfl hr
  | column =>
    obtain ⟨-, rfl⟩ := column_of_perform h
    exact hR.refl d
  | lineAt offset =>
    have hsnd : (c.lineAt offset).2 = d := congrArg Prod.snd (Except.ok.inj h)
    exact hsnd ▸ hR.lineAt offset c
  | inspect =>
    cases h
    exact hR.refl _

end Outlasts

end ParseTrail.Cursor
