import ParseTrail.Proofs.Cursor.View

/-!
# Passages of text

A cursor that only reads moves over one stretch of characters after the other. `MovesOver` says
which ones: they are kept by the later cursor, from the place of the earlier cursor up to its own.
This holds for every source, also for one that fails further on, as it speaks of what was kept only.

- `MovesOver.trans`: passages follow on each other;
- `movesOver_of_read`, `movesOver_of_readChar`: what is read is what is moved over;
- `MovesOver.shows`: what is moved over is what lay ahead in the text.
-/

namespace ParseTrail

/-! ### Cutting out a part -/

namespace Text

variable {xs ys zs : List Char} {n first last : Nat}

/-- What is taken has the length asked for. -/
theorem eq_append_of_takeBytes?_eq_some (h : takeBytes? n xs = some ys) :
    ∃ zs, xs = ys ++ zs ∧ byteLength ys = n := by
  induction xs generalizing n ys with
  | nil =>
    rcases n with _ | n
    · simp [takeBytes?] at h
      simp [h]
    · simp [takeBytes?] at h
  | cons c cs ih =>
    rcases n with _ | n
    · simp [takeBytes?] at h
      simp [h]
    · rw [takeBytes?] at h
      split at h
      · next hc =>
        obtain ⟨ds, hds, rfl⟩ := Option.map_eq_some_iff.mp h
        obtain ⟨zs, rfl, hlength⟩ := ih hds
        refine ⟨zs, rfl, ?_⟩
        rw [byteLength_cons, hlength]
        omega
      · cases h

/-- What is cut out stands between the two offsets. -/
theorem exists_append_of_slice?_eq_some (h : slice? zs first last = some ys) :
    ∃ before after, zs = before ++ (ys ++ after) ∧ byteLength before = first ∧
      last = first + byteLength ys := by
  rw [slice?] at h
  split at h
  · next hle =>
    obtain ⟨rest, hdrop, htake⟩ := Option.bind_eq_some_iff.mp h
    obtain ⟨before, rfl, hbefore⟩ := eq_append_of_dropBytes?_eq_some hdrop
    obtain ⟨after, rfl, hlength⟩ := eq_append_of_takeBytes?_eq_some htake
    exact ⟨before, after, rfl, hbefore, by omega⟩
  · cases h

end Text

namespace Cursor

/-- The cursor stands between two characters of the text kept. -/
def AtBoundary (c : Cursor) : Prop :=
  Text.isBoundary c.text c.index = true

/-- From one cursor to another, nothing was lost and the characters `cs` were moved over. -/
structure MovesOver (c : Cursor) (cs : List Char) (d : Cursor) : Prop where
  extended : c.Extends d
  slice : Text.slice? d.text c.index d.index = some cs

variable {c d e : Cursor} {cs ds before rest before' rest' : List Char} {base n : Nat}

/-- A cursor between two characters stands within the text kept. -/
theorem AtBoundary.inBounds (h : c.AtBoundary) : c.InBounds := by
  obtain ⟨xs, ys, htext, hindex⟩ := Text.isBoundary_iff.mp h
  rw [InBounds, buffered, htext, Text.byteLength_append]
  omega

/-- It stands between them still when more text is kept. -/
theorem AtBoundary.of_prefix (h : c.AtBoundary) (htext : c.text <+: d.text)
    (hindex : d.index = c.index) : d.AtBoundary := by
  obtain ⟨more, hmore⟩ := htext
  rw [AtBoundary, ← hmore, hindex, Text.isBoundary_append_of_le h.inBounds]
  exact h

/-- A cursor that shows a text stands between two of its characters. -/
theorem Shows.atBoundary (h : c.Shows base before rest) : c.AtBoundary := by
  obtain ⟨gone, kept, near, far, hparts, -, -⟩ := h
  exact Text.isBoundary_iff.mpr ⟨kept, near, hparts.text, hparts.index.symm⟩

/-- A cursor that stays where it is moves over nothing. -/
theorem movesOver_nil (hc : c.AtBoundary) (hext : c.Extends d) (hindex : d.index = c.index) :
    c.MovesOver [] d := by
  obtain ⟨xs, ys, htext, hlength⟩ := Text.isBoundary_iff.mp (hc.of_prefix hext.text hindex)
  refine ⟨hext, ?_⟩
  have hslice := Text.slice?_append xs [] ys
  rw [List.nil_append, ← htext, Text.byteLength_nil, Nat.add_zero, hlength] at hslice
  rwa [← hindex]

namespace MovesOver

/-- Whatever a cursor moves over, it comes to stand between two characters. -/
theorem atBoundary (h : c.MovesOver cs d) : d.AtBoundary := by
  obtain ⟨before, after, htext, hlength, hindex⟩ :=
    Text.exists_append_of_slice?_eq_some h.slice
  refine Text.isBoundary_iff.mpr ⟨before ++ cs, after, by rw [htext, List.append_assoc], ?_⟩
  rw [Text.byteLength_append, hlength, hindex]

/-- Passages go on from each other. -/
theorem trans (hcd : c.MovesOver cs d) (hde : d.MovesOver ds e) : c.MovesOver (cs ++ ds) e := by
  refine ⟨hcd.extended.trans hde.extended, ?_⟩
  obtain ⟨before, after, htext, hlength, hindex⟩ :=
    Text.exists_append_of_slice?_eq_some hcd.slice
  obtain ⟨before', after', htext', hlength', hindex'⟩ :=
    Text.exists_append_of_slice?_eq_some hde.slice
  -- The text up to the second cursor is kept by the third, which tells its place there.
  obtain ⟨more, hmore⟩ := hde.extended.text
  have hwhole : (before ++ cs) ++ (after ++ more) = before' ++ (ds ++ after') := by
    rw [← htext', ← hmore, htext]
    simp only [List.append_assoc]
  obtain ⟨rfl, -⟩ := Text.append_inj_of_byteLength_eq hwhole
    (by rw [Text.byteLength_append, hlength, hlength', hindex])
  have hslice := Text.slice?_append before (cs ++ ds) after'
  rw [hlength, Text.byteLength_append, ← Nat.add_assoc, ← hindex, ← hindex'] at hslice
  rw [htext', ← hslice]
  simp only [List.append_assoc]

/-- What is moved over is what lay ahead. -/
theorem shows (h : c.MovesOver cs d) (hc : c.Shows base before rest)
    (hd : d.Shows base before' rest') (hwhole : before' ++ rest' = before ++ rest) :
    before' = before ++ cs ∧ rest = cs ++ rest' := by
  obtain ⟨xs, ys, htext, hlength, hindex⟩ := Text.exists_append_of_slice?_eq_some h.slice
  obtain ⟨gone, kept, near, far, hparts, rfl, rfl⟩ := hc
  obtain ⟨gone', kept', near', far', hparts', rfl, rfl⟩ := hd
  -- Nothing was released in between, since the origin is the same.
  have hgone : gone' = gone := by
    have horigin : d.origin = c.origin := h.extended.origin
    rw [hparts.origin, hparts'.origin] at horigin
    rw [List.append_assoc, List.append_assoc] at hwhole
    exact (Text.append_inj_of_byteLength_eq hwhole (by omega)).1
  subst hgone
  -- Both cursors split the text that the later one keeps.
  have hkept : xs = kept := by
    obtain ⟨more, hmore⟩ := h.extended.text
    rw [htext, hparts.text, List.append_assoc] at hmore
    exact (Text.append_inj_of_byteLength_eq hmore.symm (by rw [hlength, hparts.index])).1
  have hkept' : kept' = kept ++ cs := by
    rw [hparts'.text, hkept, ← List.append_assoc] at htext
    refine (Text.append_inj_of_byteLength_eq htext ?_).1
    rw [Text.byteLength_append, ← hparts'.index, hindex, hparts.index]
  subst hkept'
  refine ⟨by rw [List.append_assoc], ?_⟩
  simp only [List.append_assoc, List.append_cancel_left_eq] at hwhole ⊢
  exact hwhole.symm

end MovesOver

/-! ### Reading -/

/-- Reading moves over the characters that it gives. -/
theorem movesOver_of_read (hc : c.AtBoundary) (h : c.read n = .ok (.ok cs, d)) :
    c.MovesOver cs d := by
  have hext := Extends.skip n hc.inBounds
  rw [Cursor.read] at h
  rcases hskip : c.skip n with ⟨err | _, e⟩
  · rw [hskip] at h
    cases h
  · rw [hskip] at h hext
    simp only at h
    split at h
    · next hslice =>
      cases h
      exact ⟨hext, hslice⟩
    · cases h

/-- Moving over the next character that is kept. -/
theorem movesOver_advance (hc : c.AtBoundary) (hlt : c.index < c.buffered) :
    ∃ x, c.MovesOver [x] c.advance := by
  obtain ⟨xs, ys, htext, hlength⟩ := Text.isBoundary_iff.mp hc
  rcases ys with _ | ⟨y, ys⟩
  · rw [buffered, htext, List.append_nil, hlength] at hlt
    exact absurd hlt (Nat.lt_irrefl _)
  · refine ⟨y, .advance hc.inBounds, ?_⟩
    have hslice := Text.slice?_append xs [y] ys
    simpa [Cursor.advance, htext, ← hlength] using hslice

/-- Pulling a character does not move the cursor, and leaves one to move over. -/
theorem movesOver_of_fill {more : Bool} (hc : c.AtBoundary) (h : c.fill = (.ok more, d)) :
    c.MovesOver [] d ∧ (more = true → d.index < d.buffered) := by
  have hext := Extends.fill hc.inBounds
  have hindex := fill_index c
  rw [h] at hext hindex
  refine ⟨movesOver_nil hc hext hindex, ?_⟩
  rintro rfl
  have hbound : c.index ≤ Text.byteLength c.text := hc.inBounds
  unfold Cursor.fill at h
  split at h
  · cases h
  · split at h
    · next ch _ _ =>
      cases h
      have hpos := ch.utf8Size_pos
      simp only [buffered, Text.byteLength_append, Text.byteLength_cons]
      omega
    · cases h
    · cases h
    · cases h

/-- A step moves over one character, unless there is none. -/
theorem movesOver_of_step {more : Bool} (hc : c.AtBoundary) (h : c.step = (.ok more, d)) :
    ∃ cs, c.MovesOver cs d ∧ cs.length = more.toNat := by
  rw [Cursor.step] at h
  by_cases hend : c.index = c.buffered
  · -- Nothing is left of the text kept, so a character is pulled before it is moved over.
    rw [if_pos hend] at h
    rcases hfill : c.fill with ⟨err | _ | _, e⟩
    · rw [hfill] at h
      cases h
    · rw [hfill] at h
      cases h
      exact ⟨[], (movesOver_of_fill hc hfill).1, rfl⟩
    · rw [hfill] at h
      cases h
      obtain ⟨hmoved, hmore⟩ := movesOver_of_fill hc hfill
      obtain ⟨x, hx⟩ := movesOver_advance hmoved.atBoundary (hmore rfl)
      exact ⟨[x], hmoved.trans hx, rfl⟩
  · rw [if_neg hend] at h
    cases h
    obtain ⟨x, hx⟩ := movesOver_advance hc (Nat.lt_of_le_of_ne hc.inBounds hend)
    exact ⟨[x], hx, rfl⟩

/-- Reading one character moves over that one. -/
theorem movesOver_of_readChar {found : Option Char} (hc : c.AtBoundary)
    (h : c.readChar = .ok (.ok found, d)) : c.MovesOver found.toList d := by
  rw [Cursor.readChar] at h
  rcases hstep : c.step with ⟨err | more, e⟩
  · rw [hstep] at h
    cases h
  · obtain ⟨cs, hcs, hlength⟩ := movesOver_of_step hc hstep
    rw [hstep] at h
    cases more with
    | false =>
      cases h
      rwa [List.eq_nil_of_length_eq_zero hlength] at hcs
    | true =>
      obtain ⟨x, rfl⟩ := List.length_eq_one_iff.mp hlength
      simp only [hcs.slice] at h
      cases h
      exact hcs

/-- To ask for the end of input moves over nothing. -/
theorem movesOver_of_atEnd {finished : Bool} (hc : c.AtBoundary)
    (h : c.atEnd = (.ok finished, d)) : c.MovesOver [] d := by
  have hext := Extends.atEnd hc.inBounds
  have hindex := persists_index.atEnd c
  rw [h] at hext hindex
  exact movesOver_nil hc hext hindex

end Cursor

end ParseTrail
