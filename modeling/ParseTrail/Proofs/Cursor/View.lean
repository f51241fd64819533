import ParseTrail.Proofs.Cursor.Extension
import ParseTrail.Proofs.Source

/-!
# What a cursor shows

A cursor shows a text if its parts make the text up: what was released, what is kept before and
after the cursor, and what the source still delivers. How the text falls into these parts depends on
how it was read; what reading answers does not. Each operation is stated on the text before and
after the cursor alone:

- `Shows.read`, `Shows.readChar`, `Shows.peek`, `Shows.atEnd`: the answers, and what is shown next;
- `Shows.back`: going back to a place shows what was shown there;
- `shows_ofText`, `shows_ofSource`: what cursors show at their start.
-/

namespace ParseTrail

/-- The text that a source still delivers; nothing once it is dropped. -/
def Yields : Option Source → List Char → Prop
  | none, cs => cs = []
  | some src, cs => src.Delivers cs

namespace Cursor

/-- How a text that lies at offset `base` falls into parts at a cursor: `gone` was released, `kept`
and `near` are kept before and after the cursor, and `far` is still to come. -/
structure Parts (c : Cursor) (base : Nat) (gone kept near far : List Char) : Prop where
  text : c.text = kept ++ near
  index : c.index = Text.byteLength kept
  origin : c.origin = base + Text.byteLength gone
  linesReleased : c.linesReleased = Text.newlines gone
  wholeLines : Text.WholeLines gone
  source : Yields c.source far

/-- The cursor stands in a text that lies at offset `base`, after `before` and before `rest`. -/
def Shows (c : Cursor) (base : Nat) (before rest : List Char) : Prop :=
  ∃ gone kept near far, c.Parts base gone kept near far ∧ before = gone ++ kept ∧ rest = near ++ far

/-- The cursor stands in a text that lies at offset `base`. -/
def StandsIn (base : Nat) (text : List Char) (c : Cursor) : Prop :=
  ∃ before rest, text = before ++ rest ∧ c.Shows base before rest

variable {c d : Cursor} {base n : Nat} {gone kept near far before rest before' rest' : List Char}

/-- A cursor on a text has all of it before itself. -/
theorem shows_ofText (text : String) : (ofText text).Shows 0 [] text.toList :=
  ⟨[], [], text.toList, [], ⟨rfl, rfl, rfl, rfl, .inl rfl, rfl⟩, rfl, (List.append_nil _).symm⟩

/-- A cursor on a source has all that is delivered before itself. -/
theorem shows_ofSource {src : Source} {cs : List Char} (h : src.Delivers cs) :
    (ofSource src base).Shows base [] cs :=
  ⟨[], [], [], cs, ⟨rfl, rfl, rfl, rfl, .inl rfl, h⟩, rfl, rfl⟩

/-- A cursor between two parts of a text that it keeps. -/
theorem shows_between (before rest : List Char) :
    ({ text := before ++ rest, index := Text.byteLength before } : Cursor).Shows 0 before rest :=
  ⟨[], before, rest, [], ⟨rfl, rfl, rfl, rfl, .inl rfl, rfl⟩, rfl, (List.append_nil _).symm⟩

/-- Nothing is pulled from a source that has nothing more to deliver, and it is dropped. -/
theorem fill_of_yields_nil (h : Yields c.source []) :
    c.fill = (.ok false, { c with source := none }) := by
  unfold fill
  cases hsrc : c.source with
  | none =>
    rcases c
    cases hsrc
    rfl
  | some src =>
    rw [hsrc] at h
    simp only [Source.nextCharacter_of_delivers_nil h]

/-- The next character that a source delivers is appended to the text kept. -/
theorem fill_of_yields_cons {x : Char} (h : Yields c.source (x :: far)) :
    ∃ src, c.fill = (.ok true, { c with text := c.text ++ [x], source := some src }) ∧
      Yields (some src) far := by
  unfold fill
  cases hsrc : c.source with
  | none =>
    rw [hsrc] at h
    cases h
  | some src =>
    rw [hsrc] at h
    obtain ⟨next, hnext, hdelivers, -⟩ := Source.nextCharacter_of_delivers_cons h
    exact ⟨next, by simp only [hnext], hdelivers⟩

namespace Parts

/-- The parts of the text on the two sides of the cursor are what it shows. -/
theorem shows (h : c.Parts base gone kept near far) :
    c.Shows base (gone ++ kept) (near ++ far) :=
  ⟨gone, kept, near, far, h, rfl, rfl⟩

/-- The text kept is the part before the cursor that is left, and the part after it that is there.
-/
theorem buffered_eq (h : c.Parts base gone kept near far) :
    c.buffered = Text.byteLength kept + Text.byteLength near := by
  rw [buffered, h.text, Text.byteLength_append]

/-- The cursor stands between them. -/
theorem inBounds (h : c.Parts base gone kept near far) : c.InBounds := by
  rw [InBounds, h.index, h.buffered_eq]
  omega

/-- It stands at the end of the text kept if none is there after it. -/
theorem index_eq_buffered_iff (h : c.Parts base gone kept near far) :
    c.index = c.buffered ↔ near = [] := by
  rw [h.index, h.buffered_eq]
  constructor
  · intro hlength
    exact Text.eq_nil_of_byteLength_eq_zero (by omega)
  · rintro rfl
    rfl

/-! ### Pulling characters -/

/-- Once nothing more is to come, the source is dropped. -/
theorem fill_nil (h : c.Parts base gone kept near []) :
    c.fill = (.ok false, { c with source := none }) :=
  fill_of_yields_nil h.source

/-- The next character to come is appended to the text kept. -/
theorem fill_cons {x : Char} (h : c.Parts base gone kept near (x :: far)) :
    ∃ src, c.fill = (.ok true, { c with text := c.text ++ [x], source := some src }) ∧
      ({ c with text := c.text ++ [x], source := some src } : Cursor).Parts base gone kept
        (near ++ [x]) far := by
  obtain ⟨src, hfill, hyields⟩ := fill_of_yields_cons h.source
  refine ⟨src, hfill, ⟨?_, h.index, h.origin, h.linesReleased, h.wholeLines, hyields⟩⟩
  simp only [h.text, List.append_assoc]

/-- A source that has nothing more to give may be dropped. -/
theorem withoutSource (h : c.Parts base gone kept near []) :
    ({ c with source := none } : Cursor).Parts base gone kept near [] :=
  ⟨h.text, h.index, h.origin, h.linesReleased, h.wholeLines, rfl⟩

/-! ### Reading -/

/-- Moving over the character at the cursor. -/
theorem advance {x : Char} (h : c.Parts base gone kept (x :: near) far) :
    c.advance.Parts base gone (kept ++ [x]) near far where
  text := by
    simp only [Cursor.advance, h.text, List.append_assoc, List.singleton_append]
  index := by
    simp only [Cursor.advance, h.text, h.index, Text.stepLength_byteLength_append,
      Text.byteLength_append, Text.byteLength_cons, Text.byteLength_nil, Nat.add_zero]
  origin := h.origin
  linesReleased := h.linesReleased
  wholeLines := h.wholeLines
  source := h.source

/-- At the end of the text there is nothing to step over. -/
theorem step_nil (h : c.Parts base gone kept [] []) :
    ∃ d, c.step = (.ok false, d) ∧ d.Parts base gone kept [] [] := by
  refine ⟨{ c with source := none }, ?_, h.withoutSource⟩
  rw [step, if_pos (h.index_eq_buffered_iff.mpr rfl), h.fill_nil]

/-- Otherwise the next character moves from after the cursor to before it, pulled or not. -/
theorem step_cons {x : Char} {xs : List Char} (h : c.Parts base gone kept near far)
    (hrest : near ++ far = x :: xs) :
    ∃ near' far' d, c.step = (.ok true, d) ∧ d.Parts base gone (kept ++ [x]) near' far' ∧
      near' ++ far' = xs := by
  -- The character is kept already, or it is pulled from the source now.
  rcases near with _ | ⟨y, ys⟩
  · rw [List.nil_append] at hrest
    subst hrest
    obtain ⟨src, hfill, hparts⟩ := h.fill_cons
    refine ⟨[], xs, _, ?_, hparts.advance, rfl⟩
    rw [step, if_pos (h.index_eq_buffered_iff.mpr rfl), hfill]
  · rw [List.cons_append, List.cons.injEq] at hrest
    obtain ⟨rfl, rfl⟩ := hrest
    refine ⟨ys, far, c.advance, ?_, h.advance, rfl⟩
    rw [step, if_neg fun heq => List.cons_ne_nil _ _ (h.index_eq_buffered_iff.mp heq)]

/-- So it is with several characters, as many as there are. -/
theorem skip (n : Nat) (h : c.Parts base gone kept near far) :
    ∃ near' far' d, c.skip n = (.ok (), d) ∧
      d.Parts base gone (kept ++ (near ++ far).take n) near' far' ∧
      near' ++ far' = (near ++ far).drop n := by
  induction n generalizing c kept near far with
  | zero =>
    refine ⟨near, far, c, rfl, ?_, by rw [List.drop_zero]⟩
    rw [List.take_zero, List.append_nil]
    exact h
  | succ n ih =>
    -- One character at a time moves from `near`, or from `far` if `near` is empty, to `kept`.
    rcases hrest : near ++ far with _ | ⟨x, xs⟩
    · obtain ⟨rfl, rfl⟩ := List.append_eq_nil_iff.mp hrest
      obtain ⟨d, hstep, hd⟩ := h.step_nil
      refine ⟨[], [], d, by rw [Cursor.skip, hstep], ?_, rfl⟩
      rw [List.take_nil, List.append_nil]
      exact hd
    · obtain ⟨near', far', d, hstep, hd, hxs⟩ := h.step_cons hrest
      obtain ⟨near'', far'', e, hskip, he, hrest'⟩ := ih hd
      rw [hxs, List.append_assoc, List.singleton_append] at he
      refine ⟨near'', far'', e, by rw [Cursor.skip, hstep]; exact hskip, ?_, ?_⟩
      · rw [List.take_succ_cons]
        exact he
      · rw [hrest', hxs, List.drop_succ_cons]

/-- What was moved over is the text between the two places. -/
theorem slice (h : d.Parts base gone (kept ++ rest) near far) :
    Text.slice? d.text (Text.byteLength kept) d.index = some rest := by
  rw [h.text, h.index, List.append_assoc, Text.byteLength_append, Text.slice?_append]

end Parts

namespace Shows

/-- The cursor stands after what it shows before itself. -/
theorem position (h : c.Shows base before rest) : c.position = base + Text.byteLength before := by
  obtain ⟨gone, kept, near, far, hparts, rfl, -⟩ := h
  rw [Cursor.position, hparts.origin, hparts.index, Text.byteLength_append, Nat.add_assoc]

/-- It stands within the text kept. -/
theorem inBounds (h : c.Shows base before rest) : c.InBounds := by
  obtain ⟨gone, kept, near, far, hparts, -, -⟩ := h
  exact hparts.inBounds

/-- Reading gives the characters after the cursor, and moves over them. -/
theorem read (n : Nat) (h : c.Shows base before rest) :
    ∃ d, c.read n = .ok (.ok (rest.take n), d) ∧
      d.Shows base (before ++ rest.take n) (rest.drop n) := by
  obtain ⟨gone, kept, near, far, hparts, rfl, rfl⟩ := h
  obtain ⟨near', far', d, hskip, hd, hrest⟩ := hparts.skip n
  refine ⟨d, ?_, gone, _, near', far', hd, by rw [List.append_assoc], hrest.symm⟩
  rw [Cursor.read, hskip]
  simp only [hparts.index, hd.slice]

/-- Reading one character gives the first of them, if there is one. -/
theorem readChar (h : c.Shows base before rest) :
    ∃ d, c.readChar = .ok (.ok rest.head?, d) ∧
      d.Shows base (before ++ rest.take 1) (rest.drop 1) := by
  obtain ⟨gone, kept, near, far, hparts, rfl, hsplit⟩ := h
  rcases rest with _ | ⟨x, xs⟩
  · obtain ⟨rfl, rfl⟩ := List.append_eq_nil_iff.mp hsplit.symm
    obtain ⟨d, hstep, hd⟩ := hparts.step_nil
    refine ⟨d, by rw [Cursor.readChar, hstep]; rfl, gone, kept, [], [], hd, ?_, rfl⟩
    rw [List.take_nil, List.append_nil]
  · obtain ⟨near', far', d, hstep, hd, hxs⟩ := hparts.step_cons hsplit.symm
    refine ⟨d, ?_, gone, _, near', far', hd, by rw [List.append_assoc]; rfl, hxs.symm⟩
    rw [Cursor.readChar, hstep]
    simp only [hparts.index, hd.slice, List.head?_cons]

/-- Looking gives what reading does, and stays. -/
theorem peek (n : Nat) (h : c.Shows base before rest) :
    ∃ d, c.peek n = .ok (.ok (rest.take n), d) ∧ d.Shows base before rest := by
  obtain ⟨gone, kept, near, far, hparts, rfl, rfl⟩ := h
  obtain ⟨near', far', d, hskip, hd, hrest⟩ := hparts.skip n
  refine ⟨{ d with index := c.index }, ?_, gone, kept, (near ++ far).take n ++ near', far',
    ⟨?_, hparts.index, hd.origin, hd.linesReleased, hd.wholeLines, hd.source⟩, rfl, ?_⟩
  · rw [Cursor.peek, Cursor.read, hskip]
    simp only [hparts.index, hd.slice]
  · simp only [hd.text, List.append_assoc]
  · rw [List.append_assoc, hrest, List.take_append_drop]

/-- The end of input is where nothing is shown after the cursor. -/
theorem atEnd (h : c.Shows base before rest) :
    ∃ d, c.atEnd = (.ok rest.isEmpty, d) ∧ d.Shows base before rest := by
  obtain ⟨gone, kept, near, far, hparts, rfl, rfl⟩ := h
  have hindex := hparts.index_eq_buffered_iff
  have hbound : c.index ≤ c.buffered := hparts.inBounds
  rw [Cursor.atEnd]
  rcases near with _ | ⟨x, xs⟩
  · have hend : ¬c.index < c.buffered := by
      rw [hindex.mpr rfl]
      omega
    rw [if_neg hend]
    rcases far with _ | ⟨y, ys⟩
    · rw [hparts.fill_nil]
      exact ⟨_, rfl, hparts.withoutSource.shows⟩
    · obtain ⟨src, hfill, hd⟩ := hparts.fill_cons
      rw [hfill]
      exact ⟨_, rfl, hd.shows⟩
  · have hne : c.index ≠ c.buffered := fun heq => List.cons_ne_nil _ _ (hindex.mp heq)
    rw [if_pos (by omega)]
    exact ⟨c, rfl, hparts.shows⟩

/-! ### Staying in a text -/

/-- What is shown before and after is the text that the cursor stands in. -/
theorem standsIn (h : c.Shows base before rest) :
    c.StandsIn base (before ++ rest) :=
  ⟨before, rest, rfl, h⟩

/-- Moving over a part of the text ahead does not leave the text. -/
theorem standsIn_of_moved {n : Nat}
    (h : c.Shows base (before ++ rest.take n) (rest.drop n)) : c.StandsIn base (before ++ rest) :=
  ⟨_, _, by rw [List.append_assoc, List.take_append_drop], h⟩

/-! ### Going back -/

/-- Back at a place where it stood before, a cursor shows what it showed there. -/
theorem back (hc : c.Shows base before rest) (hd : d.Shows base before' rest')
    (hext : c.Extends d) (hwhole : before' ++ rest' = before ++ rest) :
    ({ d with index := c.index } : Cursor).Shows base before rest := by
  obtain ⟨gone, kept, near, far, hparts, rfl, rfl⟩ := hc
  obtain ⟨gone', kept', near', far', hparts', rfl, rfl⟩ := hd
  -- Nothing was released in between, since the origin is the same.
  have hgone : gone' = gone := by
    have horigin : d.origin = c.origin := hext.origin
    rw [hparts.origin, hparts'.origin] at horigin
    rw [List.append_assoc, List.append_assoc] at hwhole
    exact (Text.append_inj_of_byteLength_eq hwhole (by omega)).1
  subst hgone
  obtain ⟨more, hmore⟩ := hext.text
  rw [hparts.text, hparts'.text] at hmore
  -- What was pulled in between is now kept after the cursor.
  have hfar : far = more ++ far' := by
    rw [List.append_assoc, List.append_assoc, List.append_cancel_left_eq,
      ← List.append_assoc, ← hmore] at hwhole
    simp only [List.append_assoc, List.append_cancel_left_eq] at hwhole
    exact hwhole.symm
  refine ⟨gone', kept, near ++ more, far',
    ⟨?_, hparts.index, hparts'.origin, hparts'.linesReleased, hparts'.wholeLines, hparts'.source⟩,
    rfl, ?_⟩
  · rw [hparts'.text, ← hmore, List.append_assoc]
  · rw [hfar, List.append_assoc]

/-- Scopes do not matter to what is shown. -/
theorem withScopes (h : c.Shows base before rest) (n : Nat) :
    ({ c with scopes := n } : Cursor).Shows base before rest := by
  obtain ⟨gone, kept, near, far, hparts, hbefore, hrest⟩ := h
  exact ⟨gone, kept, near, far, ⟨hparts.text, hparts.index, hparts.origin, hparts.linesReleased,
    hparts.wholeLines, hparts.source⟩, hbefore, hrest⟩

end Shows

end Cursor

end ParseTrail
