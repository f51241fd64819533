import ParseTrail.Proofs.Cursor.Alongside

/-!
# Where seeking ends

Within the text kept a seek goes to an offset at once, if it is a character boundary. Past the text
kept it reads on, character by character, until it has come to the offset, gone past it, or read all
there is.

- `Text.ceilBoundary`: the first boundary at or after an offset;
- `skipTo_kept`: reading on to an offset ends there;
- `Alongside.seekTo_within`, `Alongside.seekTo_beyond`: what a cursor on a source answers, beside
  one that has all of the text.
-/

namespace ParseTrail

namespace Text

/-- The first character boundary at or after `n`; the end of the text if `n` lies past it. -/
def ceilBoundary : List Char → Nat → Nat
  | [], _ => 0
  | c :: cs, n => if n = 0 then 0 else c.utf8Size + ceilBoundary cs (n - c.utf8Size)

variable {xs ys cs : List Char} {n m : Nat}

@[simp]
theorem ceilBoundary_zero (cs : List Char) : ceilBoundary cs 0 = 0 := by
  cases cs with
  | nil => rfl
  | cons c cs => exact if_pos rfl

theorem ceilBoundary_append_add (xs ys : List Char) (n : Nat) :
    ceilBoundary (xs ++ ys) (byteLength xs + n) = byteLength xs + ceilBoundary ys n := by
  induction xs with
  | nil => rw [byteLength_nil, Nat.zero_add, Nat.zero_add, List.nil_append]
  | cons c cs ih =>
    have hpos := c.utf8Size_pos
    have hrest : c.utf8Size + byteLength cs + n - c.utf8Size = byteLength cs + n := by omega
    rw [List.cons_append, ceilBoundary, byteLength_cons, if_neg (by omega), hrest, ih,
      Nat.add_assoc]

/-- A boundary is rounded to itself. -/
theorem ceilBoundary_of_isBoundary (h : isBoundary cs n = true) : ceilBoundary cs n = n := by
  obtain ⟨xs, ys, rfl, rfl⟩ := isBoundary_iff.mp h
  exact (ceilBoundary_append_add xs ys 0).trans (by rw [ceilBoundary_zero, Nat.add_zero])

/-- Past the end there is only the end to round to. -/
theorem ceilBoundary_of_byteLength_le (h : byteLength cs ≤ n) :
    ceilBoundary cs n = byteLength cs := by
  induction cs generalizing n with
  | nil => rfl
  | cons c cs ih =>
    have hpos := c.utf8Size_pos
    rw [byteLength_cons] at h
    rw [ceilBoundary, if_neg (by omega), ih (by omega), byteLength_cons]

end Text

namespace Cursor

variable {c d : Cursor} {text far kept near : List Char} {n offset : Nat}

/-- Reading on to an offset in a text that is kept as a whole ends at the first boundary at or after
it. -/
theorem skipTo_kept (htext : d.text = kept ++ near) (hindex : d.index = Text.byteLength kept)
    (hended : d.source = none) (hfuel : offset ≤ d.position + n) :
    d.skipTo offset n = (.ok (), { d with
      index := Text.byteLength kept + Text.ceilBoundary near (offset - d.position) }) := by
  induction n generalizing d kept near with
  | zero =>
    have hthere : offset - d.position = 0 := by omega
    rw [hthere, Text.ceilBoundary_zero, Nat.add_zero, ← hindex]
    rfl
  | succ n ih =>
    rw [skipTo]
    by_cases hbefore : d.position < offset
    · rw [if_pos hbefore]
      -- One character is stepped over, and what is left is a seek of the same kind.
      rcases near with _ | ⟨x, near⟩
      · -- All there is has been read.
        have hend : d.index = d.buffered := by rw [hindex, buffered, htext, List.append_nil]
        rw [step, if_pos hend, fill_of_source_eq_none hended]
        simp only [Text.ceilBoundary, Nat.add_zero, ← hindex]
      · have hpos := x.utf8Size_pos
        have hlt : d.index ≠ d.buffered := by
          rw [hindex, buffered, htext, Text.byteLength_append, Text.byteLength_cons]
          omega
        have hstep : d.step = (.ok true, { d with index := Text.byteLength (kept ++ [x]) }) := by
          rw [step, if_neg hlt, advance, htext, hindex, Text.stepLength_byteLength_append,
            Text.byteLength_append, Text.byteLength_cons, Text.byteLength_nil, Nat.add_zero]
        have hposition : d.position + x.utf8Size =
            ({ d with index := Text.byteLength (kept ++ [x]) } : Cursor).position := by
          simp only [position, hindex, Text.byteLength_append, Text.byteLength_cons,
            Text.byteLength_nil, Nat.add_zero, Nat.add_assoc]
        have hnext : ({ d with index := Text.byteLength (kept ++ [x]) } : Cursor).text =
            kept ++ [x] ++ near := by
          rw [htext, List.append_assoc, List.singleton_append]
        have hrest := ih hnext rfl hended (by omega)
        rw [hstep]
        simp only [hrest, ← hposition]
        rw [Text.ceilBoundary, if_neg (by omega), Text.byteLength_append, Text.byteLength_cons,
          Text.byteLength_nil, Nat.add_zero, Nat.add_assoc, Nat.sub_add_eq]
    · have hthere : offset - d.position = 0 := by omega
      rw [if_neg hbefore, hthere, Text.ceilBoundary_zero, Nat.add_zero, ← hindex]

/-- What a seek comes to at a cursor, if it is to land at an offset, or not to be made at all. -/
inductive Lands (c : Cursor) : Option Nat → Except SourceError Nat × Cursor → Prop
  /-- The seek is refused, and the cursor stays where it is. -/
  | refused {e : SourceError} {d : Cursor} :
    e.kind = .invalidInput → d.position = c.position → Lands c none (.error e, d)
  /-- The cursor goes to the offset, which is answered. -/
  | moved {offset : Nat} {d : Cursor} : d.position = offset → Lands c (some offset) (.ok offset, d)

namespace Alongside

/-- A cursor that has all of the text is beside itself. -/
theorem self (h : Alongside text far c d) : Alongside text [] d d where
  kept := (List.append_nil d.text).symm
  whole := h.whole
  index := rfl
  origin := rfl
  scopes := rfl
  inBounds := by
    have hbound : c.index ≤ c.buffered := h.inBounds
    have hbuffered := h.buffered_eq
    have hindex := h.index
    rw [InBounds]
    omega
  yields := by
    rw [h.ended]
    rfl
  ended := h.ended

/-- The boundaries of the text kept are those of the text. -/
theorem isBoundary_eq (h : Alongside text far c d) (horigin : c.origin ≤ offset)
    (hin : offset ≤ c.origin + c.buffered) :
    Text.isBoundary c.text (offset - c.origin) = Text.isBoundary text offset := by
  obtain ⟨gone, htext, hgone⟩ := h.whole
  rw [← h.origin] at hgone
  have hle : offset - c.origin ≤ Text.byteLength c.text := by
    rw [buffered] at hin
    omega
  have hoffset : Text.byteLength gone + (offset - c.origin) = offset := by omega
  have hshift := Text.isBoundary_append_add gone d.text (offset - c.origin)
  rw [← htext, hoffset] at hshift
  rw [hshift, h.kept, Text.isBoundary_append_of_le hle]

/-- Within the text that both have, both go to an offset or refuse to. -/
theorem seekTo_within (h : Alongside text far c d) (hin : offset ≤ c.origin + c.buffered) :
    (c.seekTo offset).1 = (d.seekTo offset).1 ∧
      (c.seekTo offset).2.position = (d.seekTo offset).2.position := by
  have horigin := h.origin
  have hbuffered := h.buffered_eq
  rw [seekTo, seekTo, ← horigin]
  by_cases hbefore : offset < c.origin
  · rw [if_pos hbefore, if_pos hbefore]
    exact ⟨rfl, h.position⟩
  · have hkept : offset - c.origin ≤ c.buffered := by omega
    have hkept' : offset - c.origin ≤ d.buffered := by omega
    have hsame : Text.isBoundary d.text (offset - c.origin) =
        Text.isBoundary c.text (offset - c.origin) := by
      rw [h.kept, Text.isBoundary_append_of_le hkept]
    rw [if_neg hbefore, if_neg hbefore, if_pos hkept, if_pos hkept', hsame]
    split
    · exact ⟨rfl, by rw [Cursor.position, Cursor.position, horigin]⟩
    · exact ⟨rfl, h.position⟩

/-- Past the text that it keeps, a cursor reads on to the first boundary at or after an offset. -/
theorem seekTo_beyond (h : Alongside text far c d) (hout : c.origin + c.buffered < offset) :
    ∃ c', c.seekTo offset = (.ok (Text.ceilBoundary text offset), c') ∧
      c'.position = Text.ceilBoundary text offset := by
  obtain ⟨gone, htext, hgone⟩ := h.whole
  rw [← h.origin] at hgone
  have hmoved := h.withIndex (Nat.le_refl c.buffered)
  have hposition : ({ d with index := c.buffered } : Cursor).position = c.origin + c.buffered := by
    rw [← hmoved.position]
    rfl
  obtain ⟨far', c', d', hskip, hskip', hafter⟩ :=
    hmoved.skipTo offset (offset - c.origin - c.buffered)
  -- The cursor beside it ends where the text tells, and so does this one.
  have hfuel : offset ≤ ({ d with index := c.buffered } : Cursor).position +
      (offset - c.origin - c.buffered) := by omega
  have hends := skipTo_kept (d := { d with index := c.buffered }) h.kept rfl h.ended hfuel
  rw [hends, hposition] at hskip'
  cases hskip'
  have hlands : c'.position = Text.ceilBoundary text offset := by
    have hwhole : text = gone ++ c.text ++ far := by rw [htext, h.kept, List.append_assoc]
    have hlength : Text.byteLength (gone ++ c.text) = c.origin + c.buffered := by
      rw [Text.byteLength_append, ← hgone, buffered]
    have hceil := Text.ceilBoundary_append_add (gone ++ c.text) far
      (offset - (c.origin + c.buffered))
    rw [← hwhole, hlength, Nat.add_sub_cancel' (Nat.le_of_lt hout)] at hceil
    rw [hceil, hafter.position, Cursor.position, ← h.origin, Nat.add_assoc, buffered]
  refine ⟨c', ?_, hlands⟩
  rw [seekTo, if_neg (by omega), if_neg (by omega), hskip]
  simp only [hlands]

end Alongside

end Cursor

namespace Text

/-- The offset at which a seek to an offset lands, where text from `origin` on is kept; none if the
offset lies before that or inside a character. -/
def landing? (text : List Char) (origin offset : Nat) : Option Nat :=
  if offset < origin ∨ (offset < byteLength text ∧ isBoundary text offset = false) then none
  else some (min offset (byteLength text))

end Text

namespace Cursor.Alongside

variable {c d : Cursor} {text far : List Char} {offset : Nat}

/-- A cursor that has all of the text lands where it is to land. -/
theorem lands_seekTo (h : Alongside text far c d) :
    Lands d (Text.landing? text d.origin offset) (d.seekTo offset) := by
  have hend := h.self.byteLength_text
  rw [Text.byteLength_nil, Nat.add_zero] at hend
  -- An offset lies before what is kept, in it, or past it.
  by_cases hbefore : offset < d.origin
  · rw [Text.landing?, if_pos (.inl hbefore), seekTo, if_pos hbefore]
    exact .refused rfl rfl
  by_cases hin : offset ≤ d.origin + d.buffered
  · have hkept : offset - d.origin ≤ d.buffered := by omega
    have hmin : min offset (Text.byteLength text) = offset := by omega
    rw [seekTo, if_neg hbefore, if_pos hkept, h.self.isBoundary_eq (by omega) hin, Text.landing?,
      hmin]
    by_cases hcut : Text.isBoundary text offset = true
    · rw [if_pos hcut, if_neg (by simp [hcut, hbefore])]
      exact .moved (Nat.add_sub_of_le (Nat.le_of_not_lt hbefore))
    · -- The end of the text is a boundary.
      have hne : offset ≠ Text.byteLength text := by
        rintro rfl
        exact hcut (Text.isBoundary_iff.mpr ⟨text, [], (List.append_nil text).symm, rfl⟩)
      have hinside : offset < Text.byteLength text := by omega
      rw [if_neg hcut, if_pos (.inr ⟨hinside, Bool.not_eq_true _ ▸ hcut⟩)]
      exact .refused rfl rfl
  · have hpast : Text.byteLength text ≤ offset := by omega
    have hmade : ¬(offset < d.origin ∨
        offset < Text.byteLength text ∧ Text.isBoundary text offset = false) := by omega
    obtain ⟨d', hseek, hposition⟩ := h.self.seekTo_beyond (Nat.lt_of_not_le hin)
    rw [Text.ceilBoundary_of_byteLength_le hpast] at hseek hposition
    rw [hseek, Text.landing?, if_neg hmade, Nat.min_eq_right hpast]
    exact .moved hposition

/-- Past the text that it keeps, a cursor on a source lands there too, unless the offset lies inside
a character. -/
theorem lands_seekTo_beyond (h : Alongside text far c d) (hout : c.origin + c.buffered < offset)
    (hcut : offset < Text.byteLength text → Text.isBoundary text offset = true) :
    (c.seekTo offset).1 = (d.seekTo offset).1 ∧
      (c.seekTo offset).2.position = (d.seekTo offset).2.position := by
  have horigin := h.origin
  have hlands : d.Lands (Text.landing? text d.origin offset) (d.seekTo offset) := h.lands_seekTo
  have hceil : Text.ceilBoundary text offset = min offset (Text.byteLength text) := by
    by_cases hpast : Text.byteLength text ≤ offset
    · rw [Text.ceilBoundary_of_byteLength_le hpast, Nat.min_eq_right hpast]
    · rw [Text.ceilBoundary_of_isBoundary (hcut (by omega)), Nat.min_eq_left (by omega)]
  obtain ⟨c', hseek, hposition⟩ := h.seekTo_beyond hout
  have hmade : ¬(offset < d.origin ∨
      offset < Text.byteLength text ∧ Text.isBoundary text offset = false) := by
    rintro (hbefore | ⟨hlt, hinside⟩)
    · omega
    · rw [hcut hlt] at hinside
      cases hinside
  rw [Text.landing?, if_neg hmade, ← hceil] at hlands
  rw [hseek]
  generalize d.seekTo offset = sought at hlands
  cases hlands with
  | moved hd => exact ⟨rfl, by rw [hposition, hd]⟩

end Cursor.Alongside

end ParseTrail
