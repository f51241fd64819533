import ParseTrail.Proofs.Cursor.Lines

/-!
# Cursors side by side

A cursor that pulls a text from a source, and one that was given the text as a whole, are side by
side if they stand at the same offset and keep text from the same offset on: all that tells them
apart is how much the first has yet to pull. They may stand inside a character, where nothing can be
read. What is asked of both leaves them side by side:

- `Alongside.step`, `Alongside.skip`, `Alongside.skipTo`: moving on, with the same answer;
- `Alongside.release`: dropping the lines left behind;
- `Alongside.perform`, `Alongside.asked`: requests, except those to seek.
-/

namespace ParseTrail.Cursor

/-- A cursor `c` that has yet to pull `far`, and a cursor `d` that has all of the text, at the same
place. -/
structure Alongside (text far : List Char) (c d : Cursor) : Prop where
  kept : d.text = c.text ++ far
  whole : ∃ gone, text = gone ++ d.text ∧ d.origin = Text.byteLength gone
  index : c.index = d.index
  origin : c.origin = d.origin
  scopes : c.scopes = d.scopes
  inBounds : c.InBounds
  yields : Yields c.source far
  ended : d.source = none

/-- The cursor after some requests, one after the other, if none of them has a fault. -/
def asked (c : Cursor) : List Request → Except Fault Cursor
  | [] => .ok c
  | r :: rest =>
    match c.perform r with
    | .ok (_, d) => d.asked rest
    | .error cause => .error cause

variable {c d c' d' : Cursor} {text far : List Char} {n offset : Nat}

/-- A cursor on a reader and a cursor on the text that it delivers, at the start. -/
theorem alongside_ofSource {text : String} {src : Source} (h : src.Delivers text.toList) :
    Alongside text.toList text.toList (ofSource src 0) (ofText text) where
  kept := rfl
  whole := ⟨[], rfl, rfl⟩
  index := rfl
  origin := rfl
  scopes := rfl
  inBounds := Nat.zero_le _
  yields := h
  ended := rfl

/-- A cursor without a source pulls nothing. -/
theorem fill_of_source_eq_none (h : d.source = none) : d.fill = (.ok false, d) := by
  rw [fill, h]

/-- Where there is no source, nothing more is pulled. -/
theorem fillUntil_of_source_eq_none (h : d.source = none) (stop : Char → Bool) (n : Nat) :
    d.fillUntil stop n = (.ok (), d) := by
  cases n with
  | zero => rfl
  | succ n => rw [fillUntil, fill_of_source_eq_none h]

/-- What a release leaves, outside all scopes, if the line that holds the cursor begins after some
others. -/
theorem release_of_lines {lines rest : List Char} (hscope : c.scopes = 0)
    (htext : c.text = lines ++ rest)
    (hstart : (Text.lineBounds c.text c.index).1 = Text.byteLength lines) :
    c.release = { c with
      text := rest
      index := c.index - Text.byteLength lines
      origin := c.origin + Text.byteLength lines
      linesReleased := c.linesReleased + Text.newlines lines } := by
  rw [Cursor.release, if_neg (by omega), hstart]
  simp only [htext, Text.dropBytes?_byteLength_append, Text.startingBefore_byteLength_append,
    Option.getD_some]

namespace Alongside

/-- The two stand at one offset. -/
theorem position (h : Alongside text far c d) : c.position = d.position := by
  rw [Cursor.position, Cursor.position, h.origin, h.index]

/-- What the one has more than the other is what the other has yet to pull. -/
theorem buffered_eq (h : Alongside text far c d) :
    d.buffered = c.buffered + Text.byteLength far := by
  rw [buffered, h.kept, Text.byteLength_append, buffered]

/-- The text ends where the cursor that has all of it ends. -/
theorem byteLength_text (h : Alongside text far c d) :
    Text.byteLength text = c.origin + (c.buffered + Text.byteLength far) := by
  obtain ⟨gone, htext, horigin⟩ := h.whole
  rw [htext, Text.byteLength_append, h.origin, horigin, ← h.buffered_eq, buffered]

/-- Both may be moved to a place that the first keeps. -/
theorem withIndex (h : Alongside text far c d) (hn : n ≤ c.buffered) :
    Alongside text far { c with index := n } { d with index := n } :=
  ⟨h.kept, h.whole, rfl, h.origin, h.scopes, hn, h.yields, h.ended⟩

/-! ### Pulling characters -/

/-- Where nothing is left to pull, pulling finds the end. -/
theorem fill_nil (h : Alongside text [] c d) :
    ∃ c', c.fill = (.ok false, c') ∧ Alongside text [] c' d := by
  refine ⟨_, fill_of_yields_nil h.yields, ?_⟩
  exact ⟨h.kept, h.whole, h.index, h.origin, h.scopes, h.inBounds, rfl, h.ended⟩

/-- Otherwise it pulls the character that the other cursor has already. -/
theorem fill_cons {x : Char} (h : Alongside text (x :: far) c d) :
    ∃ c', c.fill = (.ok true, c') ∧ Alongside text far c' d ∧ c'.text = c.text ++ [x] := by
  obtain ⟨src, hfill, hyields⟩ := fill_of_yields_cons h.yields
  refine ⟨_, hfill, ⟨?_, h.whole, h.index, h.origin, h.scopes, ?_, hyields, h.ended⟩, rfl⟩
  · rw [h.kept, List.append_assoc, List.singleton_append]
  · have hext := Extends.fill h.inBounds
    rw [hfill] at hext
    exact hext.inBounds

/-- Pulling more leaves the cursors side by side; with enough fuel, and nothing to stop it, all is
pulled. -/
theorem fillUntil (stop : Char → Bool) (n : Nat) (h : Alongside text far c d) :
    ∃ c' far', c.fillUntil stop n = (.ok (), c') ∧ Alongside text far' c' d ∧
      ((∀ x, stop x = false) → far.length ≤ n → far' = []) := by
  induction n generalizing c far with
  | zero =>
    refine ⟨c, far, rfl, h, fun _ hfuel => ?_⟩
    exact List.length_eq_zero_iff.mp (Nat.le_zero.mp hfuel)
  | succ n ih =>
    rcases far with _ | ⟨x, far⟩
    · obtain ⟨c', hfill, hc'⟩ := h.fill_nil
      exact ⟨c', [], by rw [Cursor.fillUntil, hfill], hc', fun _ _ => rfl⟩
    · obtain ⟨c', hfill, hc', htext⟩ := h.fill_cons
      have hlast : c'.text.getLast?.any stop = stop x := by
        rw [htext, List.getLast?_append, List.getLast?_singleton]
        rfl
      rw [Cursor.fillUntil, hfill]
      simp only [hlast]
      -- Pulling ends with this character, or goes on after it.
      by_cases hstop : stop x = true
      · rw [if_pos hstop]
        refine ⟨c', far, rfl, hc', fun hnever _ => ?_⟩
        rw [hnever x] at hstop
        cases hstop
      · obtain ⟨c'', far', hrun, hc'', hall⟩ := ih hc'
        rw [if_neg hstop]
        exact ⟨c'', far', hrun, hc'', fun hnever hfuel =>
          hall hnever (Nat.le_of_succ_le_succ hfuel)⟩

/-- To complete a line pulls some characters, and the two stay alongside. -/
theorem completeLine (n : Nat) (h : Alongside text far c d) :
    ∃ c' far', c.completeLine n = (.ok (), c') ∧ Alongside text far' c' d := by
  rw [Cursor.completeLine]
  split
  · exact ⟨c, far, rfl, h⟩
  · obtain ⟨c', far', hrun, hc', -⟩ := h.fillUntil (· == '\n') c.pending
    exact ⟨c', far', hrun, hc'⟩

/-! ### Moving on -/

/-- What the first cursor keeps at its place is what the second has there. -/
theorem advance (h : Alongside text far c d) (hlt : c.index < c.buffered) :
    Alongside text far c.advance d.advance where
  kept := h.kept
  whole := h.whole
  index := by
    have hstep : Text.stepLength d.text d.index = Text.stepLength c.text c.index := by
      rw [h.kept, ← h.index, Text.stepLength_append hlt]
    simp only [Cursor.advance, hstep, h.index]
  origin := h.origin
  scopes := h.scopes
  inBounds := Text.add_stepLength_le h.inBounds
  yields := h.yields
  ended := h.ended

/-- Both move over the same character, or find the same end. -/
theorem step (h : Alongside text far c d) :
    ∃ r far' c' d', c.step = (.ok r, c') ∧ d.step = (.ok r, d') ∧ Alongside text far' c' d' := by
  have hbound : c.index ≤ c.buffered := h.inBounds
  have hbuffered := h.buffered_eq
  have hindex := h.index
  by_cases hend : c.index = c.buffered
  · rcases far with _ | ⟨x, far⟩
    · -- Nothing is left for either of them.
      rw [Text.byteLength_nil] at hbuffered
      obtain ⟨c', hfill, hc'⟩ := h.fill_nil
      refine ⟨false, [], c', d, ?_, ?_, hc'⟩
      · rw [Cursor.step, if_pos hend, hfill]
      · rw [Cursor.step, if_pos (by omega), fill_of_source_eq_none h.ended]
    · -- The first pulls the character that the second has already.
      have hpos := x.utf8Size_pos
      rw [Text.byteLength_cons] at hbuffered
      obtain ⟨c', hfill, hc', htext⟩ := h.fill_cons
      have hlt : c'.index < c'.buffered := by
        rw [hc'.index, ← h.index, hend, buffered, buffered, htext, Text.byteLength_append,
          Text.byteLength_cons]
        omega
      refine ⟨true, far, c'.advance, d.advance, ?_, ?_, hc'.advance hlt⟩
      · rw [Cursor.step, if_pos hend, hfill]
      · rw [Cursor.step, if_neg (by omega)]
  · refine ⟨true, far, c.advance, d.advance, ?_, ?_, h.advance (by omega)⟩
    · rw [Cursor.step, if_neg hend]
    · rw [Cursor.step, if_neg (by omega)]

/-- Both move over as many characters, by induction on their number. -/
theorem skip (n : Nat) (h : Alongside text far c d) :
    ∃ far' c' d', c.skip n = (.ok (), c') ∧ d.skip n = (.ok (), d') ∧
      Alongside text far' c' d' := by
  induction n generalizing c d far with
  | zero => exact ⟨far, c, d, rfl, rfl, h⟩
  | succ n ih =>
    obtain ⟨more, far', c', d', hc, hd, hstep⟩ := h.step
    rw [Cursor.skip, Cursor.skip, hc, hd]
    cases more with
    | false => exact ⟨far', c', d', rfl, rfl, hstep⟩
    | true => exact ih hstep

/-- Both move on to the same offset. -/
theorem skipTo (offset n : Nat) (h : Alongside text far c d) :
    ∃ far' c' d', c.skipTo offset n = (.ok (), c') ∧ d.skipTo offset n = (.ok (), d') ∧
      Alongside text far' c' d' := by
  induction n generalizing c d far with
  | zero => exact ⟨far, c, d, rfl, rfl, h⟩
  | succ n ih =>
    rw [Cursor.skipTo, Cursor.skipTo, h.position]
    by_cases hbefore : d.position < offset
    · obtain ⟨more, far', c', d', hc, hd, hstep⟩ := h.step
      rw [if_pos hbefore, if_pos hbefore, hc, hd]
      cases more with
      | false => exact ⟨far', c', d', rfl, rfl, hstep⟩
      | true => exact ih hstep
    · rw [if_neg hbefore, if_neg hbefore]
      exact ⟨far, c, d, rfl, rfl, h⟩

/-! ### Requests -/

/-- Both read the same, or neither can read. -/
theorem read (n : Nat) (h : Alongside text far c d) :
    (∃ cause, c.read n = .error cause ∧ d.read n = .error cause) ∨
      ∃ chars far' c' d', c.read n = .ok (.ok chars, c') ∧ d.read n = .ok (.ok chars, d') ∧
        Alongside text far' c' d' ∧ c.Extends c' := by
  obtain ⟨far', c', d', hskip, hskip', hafter⟩ := h.skip n
  have hext := Extends.skip n h.inBounds
  rw [hskip] at hext
  -- What was moved over lies in the text that both have.
  have hslice := Text.slice?_append_of_le c.index hafter.inBounds far'
  rw [← hafter.kept, h.index, hafter.index] at hslice
  rw [Cursor.read, Cursor.read, hskip, hskip']
  simp only [hslice, h.index, hafter.index]
  cases Text.slice? c'.text d.index d'.index with
  | none => exact .inl ⟨_, rfl, rfl⟩
  | some chars => exact .inr ⟨chars, far', c', d', rfl, rfl, hafter, hext⟩

/-- Both unread the same characters. -/
theorem restore (n : Nat) (h : Alongside text far c d) (hc : c.restore n = .ok c')
    (hd : d.restore n = .ok d') : Alongside text far c' d' := by
  induction n generalizing c d with
  | zero =>
    cases hc
    cases hd
    exact h
  | succ n ih =>
    rw [Cursor.restore] at hc hd
    split at hc
    · cases hc
    · split at hd
      · cases hd
      · -- Rounding down looks at what both have.
        have hbound : c.index ≤ Text.byteLength c.text := h.inBounds
        have hle : c.index - 1 ≤ Text.byteLength c.text := by omega
        have hfloor := Text.floorBoundary_append hle far
        rw [← h.kept] at hfloor
        rw [← h.index, hfloor] at hd
        exact ih (h.withIndex (Text.floorBoundary_le_byteLength c.text _)) hc hd

/-- Both move to the same offset. -/
theorem moveTo {outside : Nat → Nat → Nat → Fault} (h : Alongside text far c d)
    (hc : c.moveTo outside offset = .ok c') (hd : d.moveTo outside offset = .ok d') :
    Alongside text far c' d' := by
  rw [Cursor.moveTo] at hc hd
  split at hc
  · next hin =>
    split at hd
    · cases hc
      cases hd
      have horigin := h.origin
      have hsame : offset - d.origin = offset - c.origin := by omega
      rw [hsame]
      exact h.withIndex hin.2
    · cases hd
  · cases hc

/-- Both drop the same lines. -/
theorem release (h : Alongside text far c d) : Alongside text far c.release d.release := by
  have hinBounds := h.inBounds.release
  rcases Nat.eq_zero_or_pos c.scopes with hzero | hpos
  · have hbound : c.index ≤ Text.byteLength c.text := h.inBounds
    -- The line that holds the place begins in the text that both have.
    obtain ⟨lines, rest, htext, -, hstart⟩ := Text.exists_lineBounds_fst_eq c.text c.index
    have hstart' : (Text.lineBounds d.text d.index).1 = Text.byteLength lines := by
      rw [h.kept, ← h.index, Text.lineBounds_fst_append hbound, hstart]
    have hdtext : d.text = lines ++ (rest ++ far) := by
      rw [h.kept, htext, List.append_assoc]
    rw [release_of_lines hzero htext hstart] at hinBounds ⊢
    rw [release_of_lines (h.scopes ▸ hzero) hdtext hstart']
    obtain ⟨gone, hwhole, horigin⟩ := h.whole
    refine ⟨rfl, ⟨gone ++ lines, ?_, ?_⟩, ?_, ?_, h.scopes, hinBounds, h.yields, h.ended⟩
    · rw [hwhole, hdtext, List.append_assoc]
    · rw [horigin, Text.byteLength_append]
    · rw [h.index]
    · rw [h.origin]
  · rw [release_eq_self hpos, release_eq_self (h.scopes ▸ hpos)]
    exact h

/-- To ask for the end of input pulls one character at most. -/
theorem atEnd (h : Alongside text far c d) : ∃ far', Alongside text far' c.atEnd.2 d.atEnd.2 := by
  have hbuffered := h.buffered_eq
  have hindex := h.index
  have hended := fill_of_source_eq_none h.ended
  have hsame : d.atEnd.2 = d := by
    rw [Cursor.atEnd]
    split
    · rfl
    · rw [hended]
  rw [hsame, Cursor.atEnd]
  split
  · exact ⟨far, h⟩
  · rcases far with _ | ⟨x, far⟩
    · obtain ⟨c', hfill, hc'⟩ := h.fill_nil
      rw [hfill]
      exact ⟨[], hc'⟩
    · obtain ⟨c', hfill, hc', -⟩ := h.fill_cons
      rw [hfill]
      exact ⟨far, hc'⟩

/-- To look at a line pulls what is missing of it. -/
theorem lineAt (h : Alongside text far c d) (offset : Nat) :
    ∃ far', Alongside text far' (c.lineAt offset).2 (d.lineAt offset).2 := by
  have hsame : (d.lineAt offset).2 = d := by
    rw [Cursor.lineAt, Cursor.completeLine, fillUntil_of_source_eq_none h.ended, ite_self]
  obtain ⟨c', far', hcomplete, hc'⟩ := h.completeLine (c.clamp offset)
  rw [hsame, Cursor.lineAt, hcomplete]
  exact ⟨far', hc'⟩

/-- Every request but one to seek leaves the cursors side by side, if it has no fault at either. -/
theorem perform (h : Alongside text far c d) {r : Request} (hr : ∀ target, r ≠ .seek target)
    {x y : r.Reply} (hc : c.perform r = .ok (x, c')) (hd : d.perform r = .ok (y, d')) :
    ∃ far', Alongside text far' c' d' := by
  cases r with
  | read n =>
    rcases h.read n with ⟨cause, hread, -⟩ | ⟨chars, far', e, e', hread, hread', hafter, -⟩
    · rw [Cursor.perform, hread] at hc
      cases hc
    · rw [Cursor.perform, hread] at hc
      rw [Cursor.perform, hread'] at hd
      cases hc
      cases hd
      exact ⟨far', hafter⟩
  | readChar =>
    obtain ⟨more, far', c₁, d₁, hstep, hstep', hafter⟩ := h.step
    simp only [Cursor.perform, Cursor.readChar, hstep, hstep'] at hc hd
    cases more with
    | false =>
      cases hc
      cases hd
      exact ⟨far', hafter⟩
    | true =>
      simp only at hc hd
      split at hc
      · split at hd
        · cases hc
          cases hd
          exact ⟨far', hafter⟩
        · cases hd
      · cases hc
  | peek n =>
    rcases h.read n with ⟨cause, hread, -⟩ | ⟨chars, far', e, e', hread, hread', hafter, hext⟩
    · rw [Cursor.perform, Cursor.peek, hread] at hc
      cases hc
    · rw [Cursor.perform, Cursor.peek, hread] at hc
      rw [Cursor.perform, Cursor.peek, hread'] at hd
      cases hc
      cases hd
      -- Both go back to where they were.
      rw [← h.index]
      exact ⟨far', hafter.withIndex (Nat.le_trans h.inBounds hext.buffered_le)⟩
  | atEnd =>
    rw [Cursor.perform, Except.ok.injEq] at hc hd
    obtain ⟨far', hafter⟩ := h.atEnd
    rw [hc, hd] at hafter
    exact ⟨far', hafter⟩
  | restore n => exact ⟨far, h.restore n (restore_of_perform hc) (restore_of_perform hd)⟩
  | restoreTo offset => exact ⟨far, h.moveTo (restoreTo_of_perform hc) (restoreTo_of_perform hd)⟩
  | seek target => exact absurd rfl (hr target)
  | release =>
    cases hc
    cases hd
    exact ⟨far, h.release⟩
  | column =>
    obtain ⟨-, rfl⟩ := column_of_perform hc
    obtain ⟨-, rfl⟩ := column_of_perform hd
    exact ⟨far, h⟩
  | lineAt offset =>
    rw [Cursor.perform, Except.ok.injEq] at hc hd
    obtain ⟨far', hafter⟩ := h.lineAt offset
    rw [hc, hd] at hafter
    exact ⟨far', hafter⟩
  | inspect =>
    cases hc
    cases hd
    exact ⟨far, h⟩

/-- So do several. -/
theorem asked {requests : List Request} (h : Alongside text far c d)
    (hseek : ∀ target, Request.seek target ∉ requests) (hc : c.asked requests = .ok c')
    (hd : d.asked requests = .ok d') : ∃ far', Alongside text far' c' d' := by
  induction requests generalizing c d far with
  | nil =>
    cases hc
    cases hd
    exact ⟨far, h⟩
  | cons r rest ih =>
    rw [Cursor.asked] at hc hd
    rcases hr : c.perform r with cause | ⟨x, c₁⟩
    · rw [hr] at hc
      cases hc
    · rcases hr' : d.perform r with cause | ⟨y, d₁⟩
      · rw [hr'] at hd
        cases hd
      · rw [hr] at hc
        rw [hr'] at hd
        have hne (target : SeekTarget) : r ≠ .seek target := by
          rintro rfl
          exact hseek target List.mem_cons_self
        obtain ⟨far', hafter⟩ := h.perform hne hr hr'
        exact ih hafter (fun target hmem => hseek target (List.mem_cons_of_mem _ hmem)) hc hd

end Alongside

end ParseTrail.Cursor
