import ParseTrail.Proofs.Cursor.Forward

/-!
# Looking ahead

To look at what comes next is to pull it and stay. All text kept is still kept afterwards, whatever
the source does. Whether input is left, and what the line around an offset reads, can be asked
without moving. So can what the next characters are, but not if the source fails before it has given
them all: then the cursor is found after those that it gave.

- `looking_ahead_keeps_text`: what becomes of a cursor in each case;
- `peek_moves_at_failure`: the case where it moves.
-/

namespace ParseTrail

namespace Cursor

variable {c d e : Cursor} {n offset : Nat} {err : SourceError}

/-- `d` keeps all that `c` keeps, from the same origin on. -/
structure Retains (c d : Cursor) : Prop where
  origin : d.origin = c.origin
  linesReleased : d.linesReleased = c.linesReleased
  scopes : d.scopes = c.scopes
  text : c.text <+: d.text

/-- `d` keeps all that `c` keeps, and stands where `c` does. -/
structure Stays (c d : Cursor) : Prop extends Retains c d where
  position : d.position = c.position

/-- What becomes of a cursor when it is asked what the next characters are. -/
inductive Looked (c : Cursor) : Except SourceError (List Char) → Cursor → Prop
  /-- It has been told, and stays. -/
  | told {d : Cursor} {found : List Char} (stays : c.Stays d) : Looked c (.ok found) d
  /-- The source failed. The cursor is at the end of what has been pulled. -/
  | failed {d : Cursor} {err : SourceError} (retains : c.Retains d)
    (ending : d.index = d.buffered) : Looked c (.error err) d

/-! ### Text kept -/

namespace Retains

/-- A cursor keeps what it keeps. -/
theorem refl (c : Cursor) : c.Retains c :=
  ⟨rfl, rfl, rfl, List.prefix_refl _⟩

/-- What is kept twice is kept. -/
theorem trans (hcd : c.Retains d) (hde : d.Retains e) : c.Retains e where
  origin := hde.origin.trans hcd.origin
  linesReleased := hde.linesReleased.trans hcd.linesReleased
  scopes := hde.scopes.trans hcd.scopes
  text := hcd.text.trans hde.text

/-- The cursor may stand anywhere. -/
theorem withIndex (h : c.Retains d) (n : Nat) : c.Retains { d with index := n } :=
  ⟨h.origin, h.linesReleased, h.scopes, h.text⟩

/-- To pull a character drops nothing. -/
theorem fill (c : Cursor) : c.Retains c.fill.2 := by
  unfold Cursor.fill
  rcases c.source with _ | src
  · exact refl c
  · simp only
    -- A character that is pulled is put after the text kept.
    rcases src.nextCharacter with ⟨ch | _ | _ | err, rest⟩
    · exact ⟨rfl, rfl, rfl, List.prefix_append _ _⟩
    · exact ⟨rfl, rfl, rfl, List.prefix_refl _⟩
    · exact ⟨rfl, rfl, rfl, List.prefix_refl _⟩
    · exact ⟨rfl, rfl, rfl, List.prefix_refl _⟩

/-- To move over one drops nothing. -/
theorem advance (c : Cursor) : c.Retains c.advance :=
  (refl c).withIndex _

/-- So nothing is dropped by all that is done character by character. -/
theorem persists : Persists Retains where
  refl := refl
  trans _ _ _ := trans
  fill := fill

/-- Moving over several characters. -/
theorem skip (n : Nat) (c : Cursor) : c.Retains (c.skip n).2 :=
  persists.skip advance n c

/-- A cursor that is put back to where it stood has not moved. -/
theorem stays (h : c.Retains d) : c.Stays { d with index := c.index } where
  toRetains := h.withIndex _
  position := by rw [position, position, h.origin]

end Retains

/-- A cursor stays where it is while characters are pulled. -/
theorem persists_stays : Persists Stays where
  refl c := ⟨.refl c, rfl⟩
  trans _ _ _ hcd hde := ⟨hcd.toRetains.trans hde.toRetains, hde.position.trans hcd.position⟩
  fill c := ⟨.fill c, position_fill c⟩

/-! ### Failures -/

/-- A failure adds nothing to the text kept. -/
theorem text_of_fill_error (h : c.fill = (.error err, d)) : d.text = c.text := by
  rw [fill] at h
  split at h
  · cases h
  · split at h
    · cases h
    · cases h
    · cases h
      rfl
    · cases h
      rfl

/-- A failure finds the cursor at the end of the text kept, since only there it pulls. -/
theorem index_of_step_error (h : c.step = (.error err, d)) : d.index = d.buffered := by
  rw [step] at h
  split at h
  · next hend =>
    split at h
    · cases h
    · next hfill =>
      cases h
      have hindex := fill_index c
      rw [hfill] at hindex
      rw [hindex, hend, buffered, buffered, text_of_fill_error hfill]
  · cases h

/-- Where the source fails, the cursor has come to the end of what was pulled. -/
theorem index_of_skip_error (h : c.skip n = (.error err, d)) : d.index = d.buffered := by
  induction n generalizing c with
  | zero => cases h
  | succ n ih =>
    unfold skip at h
    split at h
    · exact ih h
    · cases h
    · next hstep =>
      cases h
      exact index_of_step_error hstep

/-! ### Whole characters -/

/-- `d` stands a number of whole characters after `c`, if `c` stands between two characters. -/
def Passes (c d : Cursor) : Prop :=
  ∀ before after, c.text = before ++ after → c.index = Text.byteLength before →
    ∃ passed rest, d.text = before ++ (passed ++ rest) ∧
      d.index = Text.byteLength before + Text.byteLength passed

/-- A cursor that does not move passes no characters. -/
theorem passes_of_retains (h : c.Retains d) (hindex : d.index = c.index) : c.Passes d := by
  intro before after htext hbefore
  obtain ⟨more, hmore⟩ := h.text
  refine ⟨[], after ++ more, ?_, by rw [hindex, hbefore, Text.byteLength_nil, Nat.add_zero]⟩
  rw [List.nil_append, ← hmore, htext, List.append_assoc]

/-- To move over a character that is kept passes that one. -/
theorem passes_advance (c : Cursor) : c.Passes c.advance := by
  intro before after htext hbefore
  rcases after with _ | ⟨ch, after⟩
  · -- At the end of the text there is nothing to move over.
    refine ⟨[], [], htext, ?_⟩
    rw [List.append_nil] at htext
    simp only [advance, htext, hbefore, Text.stepLength_byteLength, Text.byteLength_nil]
  · refine ⟨[ch], after, htext, ?_⟩
    simp only [advance, htext, hbefore, Text.stepLength_byteLength_append, Text.byteLength_cons,
      Text.byteLength_nil, Nat.add_zero]

/-- So it passes whole characters, one by one. -/
theorem persists_passes : Persists Passes where
  refl c := passes_of_retains (.refl c) rfl
  trans c d e hcd hde := by
    intro before after htext hbefore
    obtain ⟨passed, rest, htext', hindex⟩ := hcd before after htext hbefore
    -- What was passed first belongs to what lies before the cursor afterwards.
    rw [← List.append_assoc] at htext'
    rw [← Text.byteLength_append] at hindex
    obtain ⟨passed', rest', htext'', hindex'⟩ := hde _ rest htext' hindex
    refine ⟨passed ++ passed', rest', by rw [htext'']; simp only [List.append_assoc], ?_⟩
    rw [hindex', Text.byteLength_append, Text.byteLength_append, Nat.add_assoc]
  fill c := passes_of_retains (.fill c) (fill_index c)

/-! ### Looking -/

/-- Whatever is answered, the text is kept, and only a failure finds the cursor moved. -/
theorem looked_of_peek {answer : Except SourceError (List Char)}
    (h : c.peek n = .ok (answer, d)) : c.Looked answer d := by
  have hskip := Retains.skip n c
  unfold peek read at h
  rcases hskipped : c.skip n with ⟨err | _, e⟩
  · rw [hskipped] at h hskip
    cases h
    exact .failed hskip (index_of_skip_error hskipped)
  · rw [hskipped] at hskip
    simp only [hskipped] at h
    cases hslice : Text.slice? e.text c.index e.index with
    | none => simp [hslice] at h
    | some found =>
      simp only [hslice] at h
      cases h
      exact .told hskip.stays

/-- Between two characters there is always an answer. -/
theorem exists_peek_of_isBoundary (h : Text.isBoundary c.text c.index = true) (n : Nat) :
    ∃ told, c.peek n = .ok told := by
  obtain ⟨before, after, htext, hbefore⟩ := Text.isBoundary_iff.mp h
  have hpasses := persists_passes.skip passes_advance n c before after htext hbefore.symm
  unfold peek read
  generalize c.skip n = skipped at hpasses ⊢
  rcases skipped with ⟨err | _, e⟩
  · exact ⟨_, rfl⟩
  · obtain ⟨passed, rest, htext', hindex⟩ := hpasses
    simp only at htext' hindex ⊢
    rw [htext', hindex, ← hbefore, Text.slice?_append]
    exact ⟨_, rfl⟩

end Cursor

open Cursor in
/-- Looking ahead, from any place and with any source. To ask whether input is left, or what the
line around an offset reads, leaves the cursor where it is and keeps all of the text that it keeps,
also if the source fails. To ask for the next characters does so if they are told. If the source
fails first, the text is kept as well, but the cursor is then at the end of what was pulled. -/
theorem looking_ahead_keeps_text (c : Cursor) (n offset : Nat) :
    c.Stays c.atEnd.2 ∧ c.Stays (c.lineAt offset).2 ∧
      (∀ answer d, c.peek n = .ok (answer, d) → c.Looked answer d) ∧
      (Text.isBoundary c.text c.index = true → ∃ told, c.peek n = .ok told) := by
  refine ⟨persists_stays.atEnd c, persists_stays.lineAt offset c, ?_, ?_⟩
  · intro answer d hpeek
    exact looked_of_peek hpeek
  · intro hboundary
    exact exists_peek_of_isBoundary hboundary n

/-- A source that hands out one letter and fails. -/
def letterThenFailure : Source :=
  [.data [97], .error ⟨.timedOut, "late"⟩]

/-- Two characters are asked for, and the source gives one. -/
theorem looking_ahead_keeps_text_letter :
    ∃ d, (Cursor.ofSource letterThenFailure 0).peek 2 = .ok (.error ⟨.timedOut, "late"⟩, d) ∧
      (Cursor.ofSource letterThenFailure 0).Looked (.error ⟨.timedOut, "late"⟩) d := by
  have hlooks := looking_ahead_keeps_text (Cursor.ofSource letterThenFailure 0) 2 0
  exact ⟨_, rfl, hlooks.2.2.1 _ _ rfl⟩

/-- The source fails after one character, and the cursor has moved over it. -/
theorem peek_moves_at_failure :
    ∃ d, (Cursor.ofSource letterThenFailure 0).peek 2 = .ok (.error ⟨.timedOut, "late"⟩, d) ∧
      d.position ≠ (Cursor.ofSource letterThenFailure 0).position :=
  ⟨_, rfl, by decide⟩

end ParseTrail
