import ParseTrail.Proofs.Cursor.Lines

/-!
# Going back in the text that a cursor shows

Going back by characters stops at the start of the text kept, and an offset within the text kept can
be gone back to. Either way the cursor stands in the same text. Its line number and its column
there, and what a release would drop, are told from the text before it.

- `Shows.moveTo`: the cursor at another offset within the text kept;
- `Shows.restore`, `Shows.restore_eq_error`: how far the cursor can go back by characters;
- `Shows.lineNumber`, `Shows.exists_line`: the line number, the column and the start of the line.
-/

namespace ParseTrail.Cursor

variable {c : Cursor} {base n : Nat} {gone kept near far before rest before' rest' back : List Char}

namespace Shows

/-- A cursor may stand at any boundary of the text it keeps. -/
theorem moveTo (h : c.Shows base before rest) (hwhole : before' ++ rest' = before ++ rest)
    (hfirst : c.origin ≤ base + Text.byteLength before')
    (hlast : base + Text.byteLength before' ≤ c.origin + c.buffered) :
    ({ c with index := base + Text.byteLength before' - c.origin } : Cursor).Shows base
      before' rest' := by
  obtain ⟨gone, kept, near, far, hparts, rfl, rfl⟩ := h
  have hbuffered := hparts.buffered_eq
  rw [hparts.origin] at hfirst hlast
  -- The place lies after what was released and before what is still to come.
  have hstart : gone <+: before' ++ rest' := by
    rw [hwhole, List.append_assoc]
    exact List.prefix_append _ _
  have hgone : gone <+: before' := by
    refine List.prefix_of_prefix_length_le hstart (List.prefix_append before' rest') ?_
    refine Nat.le_of_not_lt fun hlt => ?_
    have hshort : before' <+: gone :=
      List.prefix_of_prefix_length_le (List.prefix_append before' rest') hstart (Nat.le_of_lt hlt)
    obtain ⟨more, rfl⟩ := hshort
    rw [Text.byteLength_append] at hfirst
    have hnil : more = [] := Text.eq_nil_of_byteLength_eq_zero (by omega)
    rw [hnil, List.append_nil] at hlt
    exact Nat.lt_irrefl _ hlt
  obtain ⟨kept', rfl⟩ := hgone
  have hkept : kept' ++ rest' = (kept ++ near) ++ far := by
    simpa only [List.append_assoc, List.append_cancel_left_eq] using hwhole
  rw [Text.byteLength_append] at hlast
  obtain ⟨near', hnear, rfl⟩ : ∃ near', kept ++ near = kept' ++ near' ∧ rest' = near' ++ far := by
    rcases List.append_eq_append_iff.mp hkept with ⟨more, hmore, hrest⟩ | ⟨more, hmore, hfar⟩
    · exact ⟨more, hmore, hrest⟩
    · have hlength := congrArg Text.byteLength hmore
      simp only [Text.byteLength_append] at hlength
      have hnil : more = [] := Text.eq_nil_of_byteLength_eq_zero (by omega)
      rw [hnil] at hmore hfar
      exact ⟨[], by rw [hmore, List.append_nil, List.append_nil], hfar.symm⟩
  refine ⟨gone, kept', near', far, ⟨?_, ?_, hparts.origin, hparts.linesReleased,
    hparts.wholeLines, hparts.source⟩, rfl, rfl⟩
  · exact hparts.text.trans hnear
  · simp only [hparts.origin, Text.byteLength_append]
    omega

/-! ### Going back by characters -/

/-- One character back, unless it was released. -/
theorem stepBack {x : Char} (h : c.Shows base (before ++ [x]) rest)
    (hfirst : c.origin ≤ base + Text.byteLength before) :
    c.index ≠ 0 ∧
      Text.floorBoundary c.text (c.index - 1) = base + Text.byteLength before - c.origin ∧
      ({ c with index := base + Text.byteLength before - c.origin } : Cursor).Shows base before
        (x :: rest) := by
  have hpos := x.utf8Size_pos
  have hindex : c.position = base + Text.byteLength (before ++ [x]) := h.position
  have hbounds : c.index ≤ c.buffered := h.inBounds
  rw [Cursor.position, Text.byteLength_append, Text.byteLength_cons] at hindex
  have hmoved : ({ c with index := base + Text.byteLength before - c.origin } : Cursor).Shows base
      before (x :: rest) :=
    h.moveTo (by rw [List.append_assoc, List.singleton_append]) hfirst (by omega)
  refine ⟨by omega, ?_, hmoved⟩
  -- The place before the character is a boundary, and none lies between the two.
  obtain ⟨gone, kept, near, far, hparts, hbefore, hrest⟩ := hmoved
  have hplace : base + Text.byteLength before - c.origin = Text.byteLength kept := hparts.index
  have hsize : c.index - 1 = Text.byteLength kept + (x.utf8Size - 1) := by
    rw [Text.byteLength_nil] at hindex
    omega
  have hinside : Text.floorBoundary near (x.utf8Size - 1) = 0 := by
    rcases near with _ | ⟨y, ys⟩
    · rfl
    · rw [List.cons_append, List.cons.injEq] at hrest
      obtain ⟨rfl, -⟩ := hrest
      rw [Text.floorBoundary, if_pos (by omega)]
  have htext : c.text = kept ++ near := hparts.text
  rw [hplace, htext, hsize, Text.floorBoundary_append_add, hinside, Nat.add_zero]

/-- The cursor goes back by as many characters as it is asked to. -/
theorem restore (h : c.Shows base (before ++ back) rest)
    (hfirst : c.origin ≤ base + Text.byteLength before) :
    c.restore back.length = .ok { c with index := base + Text.byteLength before - c.origin } := by
  -- From the end of `back`, one character at a time.
  induction hlength : back.length generalizing c back rest with
  | zero =>
    have hnil := List.length_eq_zero_iff.mp hlength
    have hindex := h.position
    rw [hnil, List.append_nil, Cursor.position] at hindex
    have hsame : base + Text.byteLength before - c.origin = c.index := by omega
    rw [Cursor.restore, hsame]
  | succ n ih =>
    obtain ⟨back', x, rfl⟩ : ∃ back' x, back = back' ++ [x] := by
      have hne : back ≠ [] := List.ne_nil_of_length_eq_add_one hlength
      exact ⟨_, _, (List.dropLast_concat_getLast hne).symm⟩
    rw [← List.append_assoc] at h
    have hle : c.origin ≤ base + Text.byteLength (before ++ back') := by
      rw [Text.byteLength_append]
      omega
    obtain ⟨hindex, hfloor, hshows⟩ := h.stepBack hle
    have hlength' : back'.length = n := by
      rw [List.length_append] at hlength
      exact Nat.succ.inj hlength
    rw [Cursor.restore, if_neg hindex, hfloor, ih hshows hfirst hlength']

/-- The cursor cannot go back past the start of the text kept. -/
theorem restore_eq_error (h : c.Shows base (before ++ back) rest)
    (hfirst : c.origin = base + Text.byteLength before) (hn : back.length < n) :
    c.restore n = .error (.restorePastStart c.origin) := by
  induction n generalizing c back rest with
  | zero => exact absurd hn (Nat.not_lt_zero _)
  | succ n ih =>
    have hposition := h.position
    rcases List.eq_nil_or_concat back with rfl | ⟨back', x, hback⟩
    · rw [List.append_nil, Cursor.position] at hposition
      rw [Cursor.restore, if_pos (by omega)]
    · rw [hback, List.concat_eq_append] at h hn
      rw [← List.append_assoc] at h
      rw [List.length_append, List.length_singleton] at hn
      have hle : c.origin ≤ base + Text.byteLength (before ++ back') := by
        rw [Text.byteLength_append]
        omega
      obtain ⟨hindex, hfloor, hshows⟩ := h.stepBack hle
      rw [Cursor.restore, if_neg hindex, hfloor]
      exact ih hshows hfirst (by omega)

/-! ### Places on lines -/

/-- The newlines before the cursor number its line. -/
theorem lineNumber (h : c.Shows base before rest) :
    c.lineNumber = Text.newlines before + 1 := by
  have hbounds : c.index ≤ c.buffered := h.inBounds
  obtain ⟨gone, kept, near, far, hparts, rfl, -⟩ := h
  have hclamp : c.clamp c.position = Text.byteLength kept := by
    have hindex : c.position - c.origin = Text.byteLength kept := by
      rw [Cursor.position, Nat.add_sub_cancel_left, hparts.index]
    rw [clamp, hindex, ← hparts.index, Nat.min_eq_left hbounds, hparts.index, hparts.text,
      Text.floorBoundary_byteLength_append]
  rw [Cursor.lineNumber, lineNumberAt, hclamp, hparts.text, Text.startingBefore_byteLength_append,
    hparts.linesReleased, Text.newlines_append]

/-- The line before the cursor gives its column, and all before that line can be released. -/
theorem exists_line (h : c.Shows base before rest) :
    ∃ lines line, before = lines ++ line ∧ Text.WholeLines lines ∧ '\n' ∉ line ∧
      c.column = .ok (line.length + 1) ∧
      (c.scopes = 0 → c.release.origin = base + Text.byteLength lines) := by
  obtain ⟨gone, kept, near, far, hparts, rfl, -⟩ := h
  obtain ⟨lines, line, rfl, hline, hlines, hstart⟩ := Text.exists_lineBounds_append kept
  have hbounds : (Text.lineBounds c.text c.index).1 = Text.byteLength lines := by
    rw [hparts.text, hparts.index, hstart]
  have hwhole : Text.WholeLines (gone ++ lines) := by
    rcases hlines with hnil | hlast
    · rw [hnil, List.append_nil]
      exact hparts.wholeLines
    · exact .inr (by rw [List.getLast?_append, hlast]; rfl)
  refine ⟨gone ++ lines, line, by rw [List.append_assoc], hwhole, hline, ?_, fun hscopes => ?_⟩
  · rw [column, hbounds, hparts.text, hparts.index, List.append_assoc, Text.byteLength_append,
      Text.slice?_append]
  · rw [Cursor.release, if_neg (by omega), hbounds]
    simp only [hparts.origin, Text.byteLength_append, Nat.add_assoc]

end Shows

end ParseTrail.Cursor
