import ParseTrail.Proofs.Cursor.View

/-!
# Lines of the text that a cursor shows

The line around an offset is a line of the whole text, however much of it was released or has yet to
be pulled, as long as the offset itself lies in the text kept. Releasing text leaves the cursor in
the same text.

- `Shows.lineAt`: the line of an offset in the text kept;
- `Shows.release`, `release_origin_eq`: what is released depends on the text shown alone.
-/

namespace ParseTrail

/-- The line that holds an offset of a text that lies at `base`. An offset inside a character counts
as the boundary before it. -/
def Line.around (base : Nat) (cs : List Char) (offset : Nat) : Line :=
  let n := Text.floorBoundary cs (offset - base)
  let (first, last) := Text.lineBounds cs n
  { number := Text.newlines (Text.startingBefore cs n) + 1
    span := Span.of (base + first) (base + last)
    text := String.ofList ((Text.slice? cs first last).getD []) }

namespace Cursor

variable {c d : Cursor} {base n offset : Nat} {gone kept near far before rest : List Char}

/-! ### The line around an offset -/

/-- No more characters are to come than can be pulled. -/
theorem length_le_pending_of_yields (h : Yields c.source far) : far.length ≤ c.pending := by
  unfold pending
  cases hsrc : c.source with
  | none =>
    rw [hsrc] at h
    rw [show far = [] from h]
    exact Nat.zero_le _
  | some src =>
    rw [hsrc] at h
    exact Nat.le_succ_of_le (Source.length_le_size h)

namespace Parts

/-- Pulling characters until one satisfies `stop`, or until nothing more is to come. -/
theorem fillUntil (stop : Char → Bool) (h : c.Parts base gone kept near far)
    (hfuel : far.length ≤ n) :
    ∃ more far' d, c.fillUntil stop n = (.ok (), d) ∧ far = more ++ far' ∧
      d.Parts base gone kept (near ++ more) far' ∧ ((∃ x ∈ more, stop x = true) ∨ far' = []) := by
  -- At most as many characters are pulled as are still to come, so that the fuel suffices.
  induction n generalizing c near far with
  | zero =>
    have hfar : far = [] := List.length_eq_zero_iff.mp (Nat.le_zero.mp hfuel)
    subst hfar
    exact ⟨[], [], c, rfl, rfl, (List.append_nil near).symm ▸ h, .inr rfl⟩
  | succ n ih =>
    rcases far with _ | ⟨x, xs⟩
    · refine ⟨[], [], _, by rw [Cursor.fillUntil, h.fill_nil], rfl, ?_, .inr rfl⟩
      rw [List.append_nil]
      exact h.withoutSource
    · obtain ⟨src, hfill, hd⟩ := h.fill_cons
      rw [Cursor.fillUntil, hfill]
      have hlast : (c.text ++ [x]).getLast?.any stop = stop x := by
        rw [List.getLast?_append, List.getLast?_singleton]
        rfl
      simp only [hlast]
      by_cases hstop : stop x = true
      · rw [if_pos hstop]
        exact ⟨[x], xs, _, rfl, rfl, hd, .inl ⟨x, List.mem_singleton_self x, hstop⟩⟩
      · rw [List.length_cons] at hfuel
        obtain ⟨more, far', e, hrun, hxs, he, hend⟩ := ih hd (by omega)
        rw [if_neg hstop]
        refine ⟨x :: more, far', e, hrun, by rw [hxs, List.cons_append], ?_, ?_⟩
        · rw [List.append_assoc, List.singleton_append] at he
          exact he
        · rcases hend with ⟨y, hy, hstop'⟩ | hnil
          · exact .inl ⟨y, List.mem_cons_of_mem _ hy, hstop'⟩
          · exact .inr hnil

theorem length_le_pending (h : c.Parts base gone kept near far) : far.length ≤ c.pending :=
  length_le_pending_of_yields h.source

/-- After the rest of a line is pulled, either the line has ended or there is no more text. -/
theorem completeLine {ahead behind : List Char} (h : c.Parts base gone kept near far)
    (htext : c.text = behind ++ ahead) :
    ∃ more far' d, c.completeLine (Text.byteLength behind) = (.ok (), d) ∧ far = more ++ far' ∧
      d.Parts base gone kept (near ++ more) far' ∧ ('\n' ∈ ahead ++ more ∨ far' = []) := by
  rw [Cursor.completeLine, htext, Text.dropBytes?_byteLength_append, Option.getD_some]
  -- Nothing is pulled if the line has ended in the text kept.
  by_cases hline : ahead.contains '\n' = true
  · rw [if_pos hline]
    refine ⟨[], far, c, rfl, rfl, (List.append_nil near).symm ▸ h, .inl ?_⟩
    rw [List.append_nil]
    exact List.contains_iff_mem.mp hline
  · rw [if_neg hline]
    obtain ⟨more, far', d, hrun, hfar, hd, hend⟩ :=
      h.fillUntil (· == '\n') h.length_le_pending
    refine ⟨more, far', d, hrun, hfar, hd, ?_⟩
    rcases hend with ⟨x, hx, hstop⟩ | hnil
    · rw [beq_iff_eq] at hstop
      exact .inl (List.mem_append_right _ (hstop ▸ hx))
    · exact .inr hnil

/-- The line read off a cursor that keeps the whole line is that of the whole text. -/
theorem lineAround_eq (h : d.Parts base gone kept near far) {behind ahead : List Char}
    (htext : d.text = behind ++ ahead) (hline : '\n' ∈ ahead ∨ far = [])
    (hoffset : d.origin ≤ offset) (hclamp : d.clamp offset = Text.byteLength behind)
    (hfloor : Text.floorBoundary (d.text ++ far) (offset - d.origin) = Text.byteLength behind) :
    d.lineAround (Text.byteLength behind) offset =
      Line.around base (gone ++ kept ++ (near ++ far)) offset := by
  -- The whole text, cut where the offset rounds down to.
  have hwhole : gone ++ kept ++ (near ++ far) = gone ++ (behind ++ (ahead ++ far)) := by
    rw [← List.append_assoc behind, ← htext, h.text]
    simp only [List.append_assoc]
  have hfloor' : Text.floorBoundary (gone ++ (behind ++ (ahead ++ far))) (offset - base) =
      Text.byteLength gone + Text.byteLength behind := by
    have hsub : offset - base = Text.byteLength gone + (offset - d.origin) := by
      rw [h.origin] at hoffset ⊢
      omega
    rw [hsub, Text.floorBoundary_append_add, ← List.append_assoc behind, ← htext, hfloor]
  -- The line ends within the text kept, so what is still to come does not move its end.
  have hbounds : Text.lineBounds (behind ++ (ahead ++ far)) (Text.byteLength behind) =
      Text.lineBounds d.text (Text.byteLength behind) := by
    rw [htext]
    rcases hline with hmem | hnil
    · exact Text.lineBounds_append_of_mem behind hmem far
    · rw [hnil, List.append_nil]
  have hlast := Text.lineBounds_snd_le d.text (Text.byteLength behind)
  have hslice := Text.slice?_append_of_le (Text.lineBounds d.text (Text.byteLength behind)).1
    hlast far
  -- What was released consists of whole lines and only moves the bounds.
  rw [Line.around, hwhole, hfloor', lineAround, lineNumberAt, hclamp]
  rw [Text.lineBounds_wholeLines h.wholeLines, hbounds]
  simp only
  rw [Text.startingBefore_append_add, Text.startingBefore_byteLength_append, Text.newlines_append,
    htext, Text.startingBefore_byteLength_append, ← htext, h.linesReleased,
    Text.slice?_append_add, ← List.append_assoc behind, ← htext, hslice, h.origin]
  congr 2 <;> omega

end Parts

/-- The line around an offset in the text kept is that of the whole text. -/
theorem Shows.lineAt (h : c.Shows base before rest) (hfirst : c.origin ≤ offset)
    (hlast : offset ≤ c.origin + c.buffered) :
    ∃ d, c.lineAt offset = (.ok (Line.around base (before ++ rest) offset), d) ∧
      d.Shows base before rest := by
  obtain ⟨gone, kept, near, far, hparts, rfl, rfl⟩ := h
  have hinside : offset - c.origin ≤ Text.byteLength c.text := by
    rw [buffered] at hlast
    omega
  have hclamp : c.clamp offset = Text.floorBoundary c.text (offset - c.origin) := by
    rw [clamp, buffered, Nat.min_eq_left hinside]
  -- `behind` ends at the boundary that the offset rounds down to, before the line is completed
  -- and after.
  obtain ⟨behind, ahead, htext, hfloor, -⟩ :=
    Text.exists_floorBoundary_eq c.text (offset - c.origin)
  rw [hfloor] at hclamp
  obtain ⟨more, far', d, hcomplete, rfl, hd, hline⟩ := hparts.completeLine htext
  have hdtext : d.text = c.text ++ more := by
    rw [hd.text, hparts.text, List.append_assoc]
  have hdorigin : d.origin = c.origin := by rw [hd.origin, hparts.origin]
  have hdfloor (more' : List Char) :
      Text.floorBoundary (c.text ++ more') (offset - c.origin) = Text.byteLength behind := by
    rw [Text.floorBoundary_append hinside, hfloor]
  have hdclamp : d.clamp offset = Text.byteLength behind := by
    have hle : offset - c.origin ≤ d.buffered := by
      rw [buffered, hdtext, Text.byteLength_append]
      omega
    rw [clamp, hdorigin, Nat.min_eq_left hle, hdtext, hdfloor]
  have hdtext' : d.text = behind ++ (ahead ++ more) := by
    rw [hdtext, htext, List.append_assoc]
  have hdwhole : Text.floorBoundary (d.text ++ far') (offset - d.origin) =
      Text.byteLength behind := by
    rw [hdorigin, hdtext, List.append_assoc, hdfloor]
  have haround := hd.lineAround_eq hdtext' hline (hdorigin ▸ hfirst) hdclamp hdwhole
  refine ⟨d, ?_, gone, kept, near ++ more, far', hd, rfl, by rw [List.append_assoc]⟩
  rw [Cursor.lineAt, hclamp, hcomplete]
  simp only [haround, List.append_assoc]

/-! ### Releasing -/

/-- Where a release cuts the text kept, outside all scopes. -/
theorem Parts.release (h : c.Parts base gone kept near far) (hscope : c.scopes = 0) :
    ∃ lines line, kept = lines ++ line ∧ Text.WholeLines lines ∧ '\n' ∉ line ∧
      c.release.Parts base (gone ++ lines) line near far := by
  -- The lines before the one that holds the cursor are released.
  obtain ⟨lines, line, rfl, hline, hlines, hstart⟩ := Text.exists_lineBounds_append kept
  have htext : c.text = lines ++ (line ++ near) := by
    rw [h.text, List.append_assoc]
  have hbounds : (Text.lineBounds c.text c.index).1 = Text.byteLength lines := by
    rw [h.text, h.index, hstart]
  refine ⟨lines, line, rfl, hlines, hline, ?_⟩
  rw [Cursor.release, if_neg (by omega), hbounds]
  refine ⟨?_, ?_, ?_, ?_, ?_, h.source⟩
  · simp only [htext, Text.dropBytes?_byteLength_append, Option.getD_some]
  · simp only [h.index, Text.byteLength_append, Nat.add_sub_cancel_left]
  · simp only [h.origin, Text.byteLength_append, Nat.add_assoc]
  · simp only [htext, Text.startingBefore_byteLength_append, h.linesReleased, Text.newlines_append]
  · rcases hlines with hnil | hlast
    · rw [hnil, List.append_nil]
      exact h.wholeLines
    · exact .inr (by rw [List.getLast?_append, hlast]; rfl)

/-- Releasing text leaves the cursor in the same text. -/
theorem Shows.release (h : c.Shows base before rest) : c.release.Shows base before rest := by
  rcases Nat.eq_zero_or_pos c.scopes with hzero | hpos
  · obtain ⟨gone, kept, near, far, hparts, rfl, rfl⟩ := h
    obtain ⟨lines, line, rfl, -, -, hreleased⟩ := hparts.release hzero
    exact ⟨gone ++ lines, line, near, far, hreleased, by rw [List.append_assoc], rfl⟩
  · rw [release_eq_self hpos]
    exact h

/-- Cursors that show the same and keep text from the same origin on release the same. -/
theorem release_origin_eq (hc : c.Shows base before rest) (hd : d.Shows base before rest)
    (horigin : c.origin = d.origin) (hscopes : c.scopes = d.scopes) :
    c.release.origin = d.release.origin := by
  rcases Nat.eq_zero_or_pos c.scopes with hzero | hpos
  · obtain ⟨gone, kept, near, far, hparts, hbefore, -⟩ := hc
    obtain ⟨gone', kept', near', far', hparts', hbefore', -⟩ := hd
    -- The same was released before from both, hence the same text is kept before both.
    have hlength : Text.byteLength gone = Text.byteLength gone' := by
      rw [hparts.origin, hparts'.origin] at horigin
      omega
    obtain ⟨rfl, rfl⟩ := Text.append_inj_of_byteLength_eq (hbefore.symm.trans hbefore') hlength
    obtain ⟨lines, line, hkept, hline, hlines, hstart⟩ := Text.exists_lineBounds_append kept
    have hrelease {e : Cursor} {near far : List Char} (he : e.Parts base gone kept near far)
        (hscope : e.scopes = 0) : e.release.origin = e.origin + Text.byteLength lines := by
      rw [Cursor.release, if_neg (by omega), he.text, he.index, hstart]
    rw [hrelease hparts hzero, hrelease hparts' (hscopes ▸ hzero), horigin]
  · rw [release_eq_self hpos, release_eq_self (hscopes ▸ hpos), horigin]

end Cursor

end ParseTrail
