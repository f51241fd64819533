import ParseTrail.Proofs.Cursor.Persists
import ParseTrail.Proofs.Text.Lines

/-!
# Extensions of a cursor

While a scope is open a cursor only grows: its origin stays, and the text kept gets longer at its
end. So every offset that could be returned to still can be. A cursor `d` with these properties
`Extends` the cursor `c` it came from.

- `Extends.outlasts`: all but releasing extends a cursor that stands within the text it keeps;
- `Extends.perform`: every operation extends a cursor with an open scope;
- `inBounds_ofText`, `inBounds_ofSource`: cursors that are opened stand within the text they keep.
-/

namespace ParseTrail.Cursor

/-- The cursor stands within the text kept. -/
def InBounds (c : Cursor) : Prop :=
  c.index ≤ c.buffered

/-- `d` keeps all that `c` keeps, from the same origin on, and stands within it. -/
structure Extends (c d : Cursor) : Prop where
  origin : d.origin = c.origin
  linesReleased : d.linesReleased = c.linesReleased
  scopes : d.scopes = c.scopes
  text : c.text <+: d.text
  inBounds : d.InBounds

variable {c d e : Cursor} {n offset : Nat} {cause : Fault}

/-- A cursor on a text starts at its beginning. -/
theorem inBounds_ofText (text : String) : (ofText text).InBounds :=
  Nat.zero_le _

/-- A cursor on a source starts with no text kept. -/
theorem inBounds_ofSource (src : Source) (origin : Nat) : (ofSource src origin).InBounds :=
  Nat.zero_le _

namespace Extends

/-- A cursor keeps what it keeps. -/
theorem refl (h : c.InBounds) : c.Extends c :=
  ⟨rfl, rfl, rfl, List.prefix_refl _, h⟩

/-- What is kept twice is kept. -/
theorem trans (hcd : c.Extends d) (hde : d.Extends e) : c.Extends e where
  origin := hde.origin.trans hcd.origin
  linesReleased := hde.linesReleased.trans hcd.linesReleased
  scopes := hde.scopes.trans hcd.scopes
  text := hcd.text.trans hde.text
  inBounds := hde.inBounds

/-- No fewer bytes are kept. -/
theorem buffered_le (h : c.Extends d) : c.buffered ≤ d.buffered :=
  Text.byteLength_le_of_isPrefix h.text

/-- The index alone may change, as long as it stays within the text. -/
theorem withIndex (h : c.Extends d) (hn : n ≤ d.buffered) : c.Extends { d with index := n } where
  origin := h.origin
  linesReleased := h.linesReleased
  scopes := h.scopes
  text := h.text
  inBounds := hn

/-! ### Reading -/

/-- A character that is pulled joins the text kept at its end. -/
theorem fill (h : c.InBounds) : c.Extends c.fill.2 := by
  unfold Cursor.fill
  rcases c.source with _ | src
  · exact refl h
  · simp only
    -- Only a character changes the text, and it joins at the end.
    rcases src.nextCharacter with ⟨ch | _ | _ | err, rest⟩
    · refine ⟨rfl, rfl, rfl, List.prefix_append _ _, ?_⟩
      have hbound : c.index ≤ Text.byteLength c.text := h
      simp only [InBounds, buffered, Text.byteLength_append]
      omega
    · exact ⟨rfl, rfl, rfl, List.prefix_refl _, h⟩
    · exact ⟨rfl, rfl, rfl, List.prefix_refl _, h⟩
    · exact ⟨rfl, rfl, rfl, List.prefix_refl _, h⟩

/-- To move over a character that is kept stays within the text. -/
theorem advance (h : c.InBounds) : c.Extends c.advance :=
  (refl h).withIndex (Text.add_stepLength_le h)

/-- From within the text kept, the cursor is extended by all that a single character extends. -/
theorem persists : Persists fun c d => c.InBounds → c.Extends d where
  refl _ := refl
  trans _ _ _ hcd hde h := (hcd h).trans (hde (hcd h).inBounds)
  fill _ := fill

/-- Moving over several characters. -/
theorem skip (n : Nat) (h : c.InBounds) : c.Extends (c.skip n).2 :=
  persists.skip (fun _ => advance) n c h

/-- Asking for the end of input. -/
theorem atEnd (h : c.InBounds) : c.Extends c.atEnd.2 :=
  persists.atEnd c h

/-- Looking at the line of an offset. -/
theorem lineAt (offset : Nat) (h : c.InBounds) : c.Extends (c.lineAt offset).2 :=
  persists.lineAt offset c h

/-! ### Moving -/

/-- It is extended by all that a move within the text kept extends, too. -/
theorem outlasts : Outlasts fun c d => c.InBounds → c.Extends d where
  toPersists := persists
  advance _ := advance
  withIndex _ _ _ hcd hn h := (hcd h).withIndex hn
  back _ _ hcd h := (hcd h).withIndex (Nat.le_trans h (hcd h).buffered_le)

/-- Unreading characters. -/
theorem restore (n : Nat) (h : c.InBounds) (hd : c.restore n = .ok d) : c.Extends d :=
  outlasts.restore n hd h

/-- A move within the text kept. -/
theorem moveTo {outside : Nat → Nat → Nat → Fault} (h : c.InBounds)
    (hd : c.moveTo outside offset = .ok d) : c.Extends d :=
  outlasts.moveTo hd h

/-- Whoever remembers an offset of the cursor `c` can return to it from all that extend `c`. -/
theorem returnTo (h : c.Extends d) (hc : c.InBounds) :
    d.returnTo c.position = .ok { d with index := c.index } := by
  have hindex : c.position - d.origin = c.index := by
    rw [h.origin, position]
    omega
  have hle : c.index ≤ d.buffered := Nat.le_trans hc h.buffered_le
  have horigin : d.origin ≤ c.position := by
    rw [h.origin, position]
    omega
  rw [Cursor.returnTo, Cursor.moveTo, hindex, if_pos ⟨horigin, hle⟩]

/-- An offset of the cursor `c` lies in the text kept by all that extend `c`. -/
theorem position_within (h : c.Extends d) (hc : c.InBounds) :
    d.origin ≤ c.position ∧ c.position ≤ d.origin + d.buffered := by
  have hle : c.index ≤ d.buffered := Nat.le_trans hc h.buffered_le
  rw [h.origin, position]
  omega

end Extends

/-! ### Every operation -/

namespace Extends

/-- Every operation that releases nothing extends the cursor. -/
theorem perform_of_ne (h : c.InBounds) {r : Request} (hr : r ≠ .release) {reply : r.Reply}
    (hd : c.perform r = .ok (reply, d)) : c.Extends d :=
  outlasts.perform hr hd h

/-- Every operation extends the cursor, unless it releases text. -/
theorem or_release (h : c.InBounds) (r : Request) {reply : r.Reply}
    (hd : c.perform r = .ok (reply, d)) : c.Extends d ∨ d = c.release := by
  by_cases hr : r = .release
  · subst hr
    cases hd
    exact .inr rfl
  · exact .inl (perform_of_ne h hr hd)

end Extends

/-! ### Faults -/

/-- Reading faults only where the cursor stands inside a character. -/
theorem eq_insideCharacter_of_read (h : c.read n = .error cause) : cause = .insideCharacter := by
  rw [read] at h
  split at h
  · cases h
  · split at h
    · cases h
    · cases h
      rfl

/-- Unreading faults only where nothing is left to unread. -/
theorem eq_restorePastStart_of_restore (h : c.restore n = .error cause) :
    cause = .restorePastStart c.origin := by
  induction n generalizing c with
  | zero => cases h
  | succ n ih =>
    rw [restore] at h
    split at h
    · cases h
      rfl
    · have hrest := ih h
      exact hrest

/-- The faults that an operation can have. None of them is that of a parse that cannot return to
where it began. -/
theorem perform_eq_error {r : Request} (h : c.perform r = .error cause) :
    cause = .insideCharacter ∨ cause = .restorePastStart c.origin ∨
      ∃ offset first last, cause = .restoreOutside offset first last := by
  -- Reading faults inside a character only, and moves where there is no text to move to.
  cases r with
  | read n => exact .inl (eq_insideCharacter_of_read h)
  | readChar =>
    simp only [perform, readChar] at h
    split at h
    · cases h
    · cases h
    · split at h
      · cases h
      · cases h
        exact .inl rfl
  | peek n =>
    simp only [perform, peek] at h
    split at h
    · next hread =>
      cases h
      exact .inl (eq_insideCharacter_of_read hread)
    · cases h
    · cases h
  | restore n =>
    simp only [perform] at h
    cases hback : c.restore n with
    | error other =>
      rw [hback, Except.map, Except.error.injEq] at h
      exact .inr (.inl (h ▸ eq_restorePastStart_of_restore hback))
    | ok d =>
      rw [hback, Except.map] at h
      cases h
  | restoreTo offset =>
    simp only [perform, restoreTo, moveTo] at h
    split at h
    · cases h
    · cases h
      exact .inr (.inr ⟨_, _, _, rfl⟩)
  | column =>
    simp only [perform, column] at h
    split at h
    · cases h
    · cases h
      exact .inl rfl
  | _ => cases h

/-! ### Looking at a line -/

/-- To pull a character does not move the cursor. -/
@[simp]
theorem fill_index (c : Cursor) : c.fill.2.index = c.index := by
  unfold fill
  rcases c.source with _ | src
  · rfl
  · simp only
    rcases src.nextCharacter with ⟨ch | _ | _ | err, rest⟩ <;> rfl

/-- So no operation moves it that only pulls characters. -/
theorem persists_index : Persists fun c d => d.index = c.index where
  refl _ := rfl
  trans _ _ _ hcd hde := hde.trans hcd
  fill := fill_index

/-- Reading ahead to the end of a line does not move the cursor. -/
theorem lineAt_index (offset : Nat) (c : Cursor) : (c.lineAt offset).2.index = c.index :=
  persists_index.lineAt offset c

/-! ### Scopes and releasing -/

/-- What happens inside a scope extends the cursor as it was outside. -/
theorem Extends.closeScope (h : c.openScope.Extends d) : c.Extends d.closeScope where
  origin := h.origin
  linesReleased := h.linesReleased
  scopes := by
    have hscopes : d.scopes = c.scopes + 1 := h.scopes
    simp only [Cursor.closeScope, hscopes, Nat.add_sub_cancel]
  text := h.text
  inBounds := h.inBounds

/-- While a scope is open there is nothing to release. -/
theorem release_eq_self (h : 0 < c.scopes) : c.release = c :=
  if_pos h

/-- While a scope is open, every operation extends the cursor. -/
theorem Extends.perform (h : c.InBounds) (hscope : 0 < c.scopes) (r : Request) {reply : r.Reply}
    (hd : c.perform r = .ok (reply, d)) : c.Extends d := by
  rcases or_release h r hd with hext | rfl
  · exact hext
  · rw [release_eq_self hscope]
    exact refl h

/-- A release opens and closes no scope. -/
@[simp]
theorem release_scopes (c : Cursor) : c.release.scopes = c.scopes := by
  unfold release
  split <;> rfl

/-- Releasing text does not move the cursor. -/
@[simp]
theorem release_position (c : Cursor) : c.release.position = c.position := by
  unfold release
  by_cases hscope : c.scopes > 0
  · rw [if_pos hscope]
  · obtain ⟨pre, post, -, hle, hstart⟩ := Text.exists_lineBounds_fst_eq c.text c.index
    rw [if_neg hscope, hstart]
    simp only [position]
    omega

/-- Releasing text does not change how far the input has been pulled. -/
theorem release_end (c : Cursor) :
    c.release.origin + c.release.buffered = c.origin + c.buffered := by
  unfold release
  by_cases hscope : c.scopes > 0
  · rw [if_pos hscope]
  · obtain ⟨pre, post, htext, -, hstart⟩ := Text.exists_lineBounds_fst_eq c.text c.index
    rw [if_neg hscope, hstart]
    simp only [buffered]
    rw [htext, Text.dropBytes?_byteLength_append, Option.getD_some, Text.byteLength_append]
    omega

/-- Releasing text does not take the cursor out of the text kept. -/
theorem InBounds.release (h : c.InBounds) : c.release.InBounds := by
  unfold Cursor.release
  by_cases hscope : c.scopes > 0
  · rw [if_pos hscope]
    exact h
  · obtain ⟨pre, post, htext, hle, hstart⟩ := Text.exists_lineBounds_fst_eq c.text c.index
    have hbound : c.index ≤ Text.byteLength c.text := h
    rw [htext, Text.byteLength_append] at hbound
    rw [if_neg hscope, hstart]
    simp only [InBounds, buffered]
    rw [htext, Text.dropBytes?_byteLength_append, Option.getD_some]
    omega

end ParseTrail.Cursor
