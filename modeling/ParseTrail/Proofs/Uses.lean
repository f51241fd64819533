import ParseTrail.Proofs.Blame
import ParseTrail.Proofs.Streaming

/-!
# Using a cursor

Between parses a cursor may be read from, looked ahead with and told to release text. However it was
used before, it still stands somewhere in the same text, and all that matters to what comes next is
where.

- `Use.standsIn`, `standsIn_after`: uses of a cursor leave it in its text;
- `uses_leave_no_trace`: an invocation cannot tell a cursor that was used from a fresh one at the
  same offset.
-/

namespace ParseTrail

/-- A use of a cursor by someone who is not parsing. -/
inductive Use : Type 1 where
  /-- Invoke a parser. -/
  | invoke (i : Invocation)
  /-- Read `n` characters. -/
  | read (n : Nat)
  /-- Read one character. -/
  | readChar
  /-- Look at the next `n` characters. -/
  | peek (n : Nat)
  /-- Ask whether no input is left. -/
  | atEnd
  /-- Release the lines left behind. -/
  | release

/-- What a use makes of a cursor, whatever it tells. -/
def Use.run : Use → Cursor → Except Halt Cursor
  | invoke i, c => (i.run c).map Prod.snd
  | read n, c => Halt.check ((c.read n).map Prod.snd)
  | readChar, c => Halt.check (c.readChar.map Prod.snd)
  | peek n, c => Halt.check ((c.peek n).map Prod.snd)
  | atEnd, c => .ok c.atEnd.2
  | release, c => .ok c.release

/-- The cursor after uses one after the other, unless one of them halts. -/
def Cursor.after (c : Cursor) (uses : List Use) : Except Halt Cursor :=
  uses.foldlM (fun d u => u.run d) c

variable {c d : Cursor} {base : Nat} {text before rest : List Char}

/-! ### Staying in a text -/

/-- A use leaves a cursor in its text. -/
theorem Use.standsIn (u : Use) (h : c.StandsIn base text) (hd : u.run c = .ok d) :
    d.StandsIn base text := by
  obtain ⟨before, rest, rfl, hc⟩ := h
  cases u with
  | invoke i =>
    -- Standing in a text is standing abreast of oneself.
    have hagree := i.agree_run_of_abreast ⟨before, rest, rfl, hc, hc⟩
    rw [Use.run] at hd
    generalize i.run c = o at hagree hd
    rcases hagree with _ | ⟨-, ⟨before', rest', htext, hc', -⟩, -⟩
    · cases hd
    · cases hd
      exact ⟨before', rest', htext, hc'⟩
  | read n =>
    obtain ⟨e, hread, he⟩ := hc.read n
    rw [Use.run, hread] at hd
    cases hd
    exact he.standsIn_of_moved
  | readChar =>
    obtain ⟨e, hread, he⟩ := hc.readChar
    rw [Use.run, hread] at hd
    cases hd
    exact he.standsIn_of_moved
  | peek n =>
    obtain ⟨e, hpeek, he⟩ := hc.peek n
    rw [Use.run, hpeek] at hd
    cases hd
    exact he.standsIn
  | atEnd =>
    obtain ⟨e, hend, he⟩ := hc.atEnd
    rw [Use.run, hend] at hd
    cases hd
    exact he.standsIn
  | release =>
    cases hd
    exact hc.release.standsIn

/-- So do uses one after the other. -/
theorem Cursor.StandsIn.after (h : c.StandsIn base text) {uses : List Use}
    (hd : c.after uses = .ok d) : d.StandsIn base text := by
  induction uses generalizing c with
  | nil =>
    cases hd
    exact h
  | cons u uses ih =>
    rw [Cursor.after, List.foldlM_cons] at hd
    rcases hu : u.run c with halt | e
    · rw [hu] at hd
      cases hd
    · rw [hu] at hd
      exact ih (u.standsIn h hu) hd

/-! ### Fresh cursors -/

/-- Seeking to a character boundary of a text gets there. -/
theorem Cursor.seek_ofText {text : String} (h : text.toList = before ++ rest) :
    ∃ d, (Cursor.ofText text).seek (.start (Text.byteLength before)) =
        (.ok (Text.byteLength before), d) ∧ d.Shows 0 before rest := by
  refine ⟨{ text := before ++ rest, index := Text.byteLength before }, ?_, shows_between before rest⟩
  have hle : Text.byteLength before ≤ Text.byteLength (before ++ rest) := by
    rw [Text.byteLength_append]
    omega
  have hboundary : Text.isBoundary (before ++ rest) (Text.byteLength before) = true := by
    rw [Text.isBoundary, Text.dropBytes?_byteLength_append]
    rfl
  rw [Cursor.seek, Cursor.seekTo]
  simp only [Cursor.ofText, Cursor.buffered, h, Nat.not_lt_zero, if_false, Nat.sub_zero, if_pos hle,
    hboundary, if_true]

/-- What an invocation tells, and at which offset it leaves the cursor. -/
def Invocation.told (i : Invocation) (c : Cursor) :
    Except Halt (Except ParseError i.Answer × Nat) :=
  (i.run c).map fun (result, d) => (result, d.position)

/-- Earlier uses of a cursor leave no trace but its position. However a cursor in a text was used, a
fresh one can be sought to the same offset, and then any invocation gives the same value or the same
error at both, with its report and its trail, and leaves both at the same offset. -/
theorem uses_leave_no_trace (text : String) (uses : List Use) (c : Cursor)
    (hc : (Cursor.ofText text).after uses = .ok c) :
    ∃ d, (Cursor.ofText text).seek (.start c.position) = (.ok c.position, d) ∧
      ∀ i : Invocation, i.told c = i.told d := by
  have hstart : (Cursor.ofText text).StandsIn 0 text.toList :=
    ⟨[], text.toList, rfl, Cursor.shows_ofText text⟩
  obtain ⟨before, rest, htext, hshows⟩ := hstart.after hc
  obtain ⟨d, hseek, hd⟩ := Cursor.seek_ofText htext
  rw [hshows.position, Nat.zero_add]
  refine ⟨d, hseek, fun i => ?_⟩
  -- The two stand abreast, whatever text they keep, before and after the invocation.
  have hagree := i.agree_run_of_abreast ⟨before, rest, htext, hshows, hd⟩
  rw [Invocation.told, Invocation.told]
  generalize i.run c = o, i.run d = q at hagree ⊢
  rcases hagree with _ | @⟨r, _, c', d', rfl, habreast, -⟩
  · rfl
  · show Except.ok (r, c'.position) = Except.ok (r, d'.position)
    rw [habreast.position_eq]

/-- Uses of all kinds, with a parse that fails and a look ahead that matches. -/
def mixedUses : List Use :=
  [.peek 9, .read 2, .invoke (.parse ruleless 1 {} (.literal "x")), .release, .atEnd, .readChar,
    .invoke (.parseAhead ruleless 1 (.literal "c"))]

/-- After them the text before the second line is gone, and yet an invocation tells the same as at a
fresh cursor at the same offset. -/
theorem uses_leave_no_trace_mixed :
    ∃ c d, (Cursor.ofText "é\nbc").after mixedUses = .ok c ∧ c.position = 4 ∧ c.origin = 3 ∧
      (Cursor.ofText "é\nbc").seek (.start 4) = (.ok 4, d) ∧
      ∀ i : Invocation, i.told c = i.told d := by
  have hchecked : passes (fun c => decide (c.position = 4 ∧ c.origin = 3))
      ((Cursor.ofText "é\nbc").after mixedUses) = true := by
    decide +kernel
  obtain ⟨c, hc, hplaces⟩ := exists_of_passes hchecked
  obtain ⟨hposition, horigin⟩ := of_decide_eq_true hplaces
  obtain ⟨d, hseek, htold⟩ := uses_leave_no_trace "é\nbc" mixedUses c hc
  rw [hposition] at hseek
  exact ⟨c, d, hc, hposition, horigin, hseek, htold⟩

end ParseTrail
