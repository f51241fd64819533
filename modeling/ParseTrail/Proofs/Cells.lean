import ParseTrail.Proofs.Underlining

/-!
# The cells below a line

Below a line there is one cell for each of its characters, and a last one for its terminator. A span
is drawn as a mark in every cell that it meets, after spaces up to the first, and the marks tell
whether it goes on beyond the line. An empty span is drawn as a `V` in the cell that starts where it
is.

- `Span.Meets`, `cells`: what is drawn below, and where;
- `exists_split_cells`: the cells that a span meets stand together, between the columns of its ends;
- `underline_marks_cells`: what is drawn of a span, below any line.
-/

namespace ParseTrail

variable {s line : Span} {text xs ys drawn : List Char} {start width : Nat}

/-! ### Cells -/

/-- The spans of the characters of a text that begins at an offset. -/
def charCells (start : Nat) : List Char → List Span
  | [] => []
  | c :: cs => ⟨start, start + c.utf8Size⟩ :: charCells (start + c.utf8Size) cs

/-- The cells below a line: one for each character, and a last one of one byte. -/
def cells (start : Nat) (text : List Char) : List Span :=
  charCells start text ++
    [⟨start + Text.byteLength text, start + Text.byteLength text + 1⟩]

/-- Two spans share an offset. -/
def Span.Meets (s t : Span) : Prop :=
  ∃ n, s.contains n ∧ t.contains n

theorem Span.meets_iff {t : Span} :
    s.Meets t ↔ max s.start t.start < min s.stop t.stop := by
  simp only [Meets, contains, Bool.and_eq_true, decide_eq_true_eq]
  constructor
  · rintro ⟨n, hs, ht⟩
    omega
  · intro h
    exact ⟨max s.start t.start, by omega, by omega⟩

@[simp]
theorem length_charCells (start : Nat) (text : List Char) :
    (charCells start text).length = text.length := by
  induction text generalizing start with
  | nil => rfl
  | cons c cs ih => simp [charCells, ih]

theorem charCells_append (start : Nat) (xs ys : List Char) :
    charCells start (xs ++ ys) =
      charCells start xs ++ charCells (start + Text.byteLength xs) ys := by
  induction xs generalizing start with
  | nil => rfl
  | cons c cs ih => simp [charCells, ih, Nat.add_assoc]

theorem cells_append (start : Nat) (xs ys : List Char) :
    cells start (xs ++ ys) = charCells start xs ++ cells (start + Text.byteLength xs) ys := by
  simp [cells, charCells_append, Nat.add_assoc]

/-- The cells of characters lie one after the other, within the text. -/
theorem within_charCells {t : Span} (h : t ∈ charCells start text) :
    start ≤ t.start ∧ t.start < t.stop ∧ t.stop ≤ start + Text.byteLength text := by
  induction text generalizing start with
  | nil => simp [charCells] at h
  | cons c cs ih =>
    have hpos := c.utf8Size_pos
    rw [Text.byteLength_cons]
    rcases List.mem_cons.mp h with rfl | h
    · simp only
      omega
    · have hrest := ih h
      omega

theorem within_cells {t : Span} (h : t ∈ cells start text) :
    start ≤ t.start ∧ t.start < t.stop ∧ t.stop ≤ start + Text.byteLength text + 1 := by
  rcases List.mem_append.mp h with h | h
  · have hwithin := within_charCells h
    omega
  · rw [List.mem_singleton.mp h]
    simp only
    omega

/-! ### Columns -/

/-- The column of a place between two characters is the number of characters before it. -/
theorem Text.column_byteLength_append (start : Nat) (xs ys : List Char) :
    Text.column (xs ++ ys) start (start + Text.byteLength xs) = xs.length := by
  rw [Text.column, Nat.add_sub_cancel_left]
  simp

/-- The place after the last character has a column of its own. -/
theorem Text.column_beyond (start : Nat) (text : List Char) :
    Text.column text start (start + Text.byteLength text + 1) = text.length + 1 := by
  have hsub : start + Text.byteLength text + 1 - start = Text.byteLength text + 1 := by omega
  rw [Text.column, hsub, if_neg (Nat.not_succ_le_self _), Nat.add_sub_cancel_left]

/-! ### What is drawn -/

/-- The marks below the cells that a span meets. -/
inductive Glyphs (cutLeft cutRight : Prop) [Decidable cutLeft] [Decidable cutRight] :
    List Char → Prop
  /-- A single one is `|`, unless the span goes on beyond the line. -/
  | one : Glyphs cutLeft cutRight [if cutLeft ∨ cutRight then '-' else '|']
  /-- Of several, the first and the last tell on which sides it goes on. -/
  | several (between : Nat) : Glyphs cutLeft cutRight
    ((if cutLeft then '-' else '\\') :: List.replicate between '-' ++
      [if cutRight then '-' else '/'])

/-- What a span looks like below a line. -/
inductive Underlined (s line : Span) (text : List Char) : List Char → Prop
  /-- Nothing is drawn of a span that meets no cell. -/
  | unmet : s.start < s.stop → (∀ t ∈ cells line.start text, ¬s.Meets t) → Underlined s line text []
  /-- Every cell that it meets is marked, and there is nothing but spaces before. -/
  | met {before met after : List Span} {marks : List Char} : s.start < s.stop →
    cells line.start text = before ++ (met ++ after) → met ≠ [] →
    (∀ t ∈ before, ¬s.Meets t) → (∀ t ∈ met, s.Meets t) → (∀ t ∈ after, ¬s.Meets t) →
    marks.length = met.length → Glyphs (s.start < line.start) (line.stop + 1 < s.stop) marks →
    Underlined s line text (List.replicate before.length ' ' ++ marks)
  /-- An empty span on the line is drawn in the cell that starts where it is. -/
  | point {before after : List Span} {t : Span} : s.start = s.stop →
    line.start ≤ s.start → s.start ≤ line.stop →
    cells line.start text = before ++ t :: after → t.start = s.start →
    Underlined s line text (List.replicate before.length ' ' ++ ['V'])
  /-- Nothing is drawn of an empty span elsewhere. -/
  | beside : s.start = s.stop → ¬(line.start ≤ s.start ∧ s.start ≤ line.stop) →
    Underlined s line text []

/-- If an offset falls on the line, it stands between two of its characters. -/
def BetweenChars (line : Span) (text : List Char) (n : Nat) : Prop :=
  line.start ≤ n → n ≤ line.stop → Text.isBoundary text (n - line.start) = true

namespace Underlined

/-- Nothing goes below the line beyond its last cell. -/
theorem length_le (h : Underlined s line text drawn) : drawn.length ≤ text.length + 1 := by
  have hcells : (cells line.start text).length = text.length + 1 := by simp [cells]
  cases h with
  | unmet => exact Nat.zero_le _
  | met _ hsplit _ _ _ _ hmarks _ =>
    rw [hsplit] at hcells
    simp only [List.length_append, List.length_replicate] at hcells ⊢
    omega
  | point _ _ _ hsplit _ =>
    rw [hsplit] at hcells
    simp only [List.length_append, List.length_cons, List.length_replicate, List.length_nil]
      at hcells ⊢
    omega
  | beside => exact Nat.zero_le _

/-- A span that is not empty is drawn if it meets a cell. -/
theorem eq_nil_iff (h : Underlined s line text drawn) (hs : s.start < s.stop) :
    drawn = [] ↔ ∀ t ∈ cells line.start text, ¬s.Meets t := by
  cases h with
  | unmet _ hunmet => simpa using hunmet
  | met _ hsplit hne _ hmet _ hmarks _ =>
    -- There is a cell that is met, and it has a mark.
    obtain ⟨t, ht⟩ := List.exists_mem_of_ne_nil _ hne
    constructor
    · intro hnil
      rw [(List.append_eq_nil_iff.mp hnil).2] at hmarks
      exact absurd (List.eq_nil_of_length_eq_zero hmarks.symm) hne
    · intro hunmet
      refine absurd (hmet t ht) (hunmet t ?_)
      rw [hsplit]
      exact List.mem_append_right _ (List.mem_append_left _ ht)
  | point heq => omega
  | beside heq => omega

end Underlined

/-! ### Which cells are met -/

/-- Where a line is cut at an offset between two characters, or before its first. -/
theorem BetweenChars.exists_append {n : Nat} (h : BetweenChars line text n)
    (hlast : n ≤ line.stop) :
    ∃ xs ys, text = xs ++ ys ∧ line.start + Text.byteLength xs = max n line.start := by
  rcases Nat.lt_or_ge n line.start with hlt | hge
  · exact ⟨[], text, rfl, by rw [Text.byteLength_nil]; omega⟩
  · obtain ⟨xs, ys, htext, hlength⟩ := Text.isBoundary_iff.mp (h hge hlast)
    exact ⟨xs, ys, htext, by omega⟩

/-- The cells that a span meets stand together, between the columns of its two ends. -/
theorem exists_split_cells (hline : line.stop = line.start + Text.byteLength text)
    (hs : s.start < s.stop) (hbefore : s.start ≤ line.stop) (hafter : line.start < s.stop)
    (hstart : BetweenChars line text s.start) (hstop : BetweenChars line text s.stop) :
    ∃ before met after, cells line.start text = before ++ (met ++ after) ∧ met ≠ [] ∧
      Text.column text line.start (max s.start line.start) = before.length ∧
      Text.column text line.start (min s.stop (line.stop + 1)) = before.length + met.length ∧
      (∀ t ∈ before, ¬s.Meets t) ∧ (∀ t ∈ met, s.Meets t) ∧ ∀ t ∈ after, ¬s.Meets t := by
  obtain ⟨xs, rest, rfl, hfirst⟩ := hstart.exists_append hbefore
  simp only [Text.byteLength_append] at hline
  have hpassed {t : Span} (ht : t ∈ charCells line.start xs) : ¬s.Meets t := by
    have hwithin := within_charCells ht
    rw [Span.meets_iff]
    omega
  -- The span ends between two characters after its start, or beyond all of them.
  rcases Nat.lt_or_ge line.stop s.stop with hbeyond | hwithin
  · -- All cells from its start on are met, the last one too.
    refine ⟨charCells line.start xs, cells (max s.start line.start) rest, [], ?_, ?_, ?_, ?_,
      fun t ht => hpassed ht, fun t ht => ?_, fun t ht => nomatch ht⟩
    · rw [cells_append, hfirst, List.append_nil]
    · simp [cells]
    · rw [← hfirst, Text.column_byteLength_append, length_charCells]
    · have hend : min s.stop (line.stop + 1) = line.start + Text.byteLength (xs ++ rest) + 1 := by
        rw [Text.byteLength_append]
        omega
      rw [hend, Text.column_beyond]
      simp [cells, Nat.add_assoc]
    · have hcell := within_cells ht
      rw [Span.meets_iff]
      omega
  · obtain ⟨ys, zs, rfl, hlast⟩ :
        ∃ ys zs, rest = ys ++ zs ∧ max s.start line.start + Text.byteLength ys = s.stop := by
      have hboundary := hstop (Nat.le_of_lt hafter) hwithin
      obtain ⟨n, hn⟩ : ∃ n, s.stop - line.start = Text.byteLength xs + n :=
        ⟨s.stop - line.start - Text.byteLength xs, by omega⟩
      rw [hn, Text.isBoundary_append_add] at hboundary
      obtain ⟨ys, zs, hrest, hlength⟩ := Text.isBoundary_iff.mp hboundary
      exact ⟨ys, zs, hrest, by omega⟩
    -- The cells of the characters in between are met, and none after them.
    refine ⟨charCells line.start xs, charCells (max s.start line.start) ys, cells s.stop zs,
      ?_, ?_, ?_, ?_, fun t ht => hpassed ht, fun t ht => ?_, fun t ht => ?_⟩
    · rw [cells_append, cells_append, hfirst, hlast]
    · intro hnil
      have hempty : ys = [] := List.eq_nil_of_length_eq_zero (by rw [← length_charCells, hnil]; rfl)
      rw [hempty, Text.byteLength_nil] at hlast
      omega
    · rw [← hfirst, Text.column_byteLength_append, length_charCells]
    · have hend : min s.stop (line.stop + 1) = line.start + Text.byteLength (xs ++ ys) := by
        rw [Text.byteLength_append]
        omega
      rw [hend, ← List.append_assoc, Text.column_byteLength_append]
      simp
    · have hcell := within_charCells ht
      rw [Span.meets_iff]
      omega
    · have hcell := within_cells ht
      rw [Span.meets_iff]
      omega

/-! ### Drawing -/

namespace Span

/-- There is one mark for each column. -/
theorem glyphs_of_marks {cutLeft cutRight : Prop} [Decidable cutLeft] [Decidable cutRight]
    (hwidth : 0 < width) (h : marks width cutLeft cutRight = .ok drawn) :
    drawn.length = width ∧ Glyphs cutLeft cutRight drawn := by
  rw [marks] at h
  split at h
  · next hone =>
    cases h
    rw [← Bool.decide_or]
    simp only [decide_eq_true_eq]
    exact ⟨hone.symm, .one⟩
  · next hseveral =>
    obtain ⟨middle, hmiddle⟩ : ∃ middle, repeated '-' (width - 2) = .ok middle := by
      cases hmiddle : repeated '-' (width - 2) with
      | error cause =>
        rw [hmiddle] at h
        cases h
      | ok middle => exact ⟨middle, rfl⟩
    rw [hmiddle] at h
    cases h
    simp only [eq_of_repeated hmiddle, decide_eq_true_eq]
    refine ⟨?_, .several (width - 2)⟩
    simp only [List.length_append, List.length_cons, List.length_replicate, List.length_nil]
    omega

end Span

/-- A span that is not empty is drawn as its marks. -/
theorem exists_underlined_of_lt (hline : line.stop = line.start + Text.byteLength text)
    (hfits : text.length ≤ widthLimit) (hlimit : line.stop + 1 < offsetLimit)
    (hs : s.start < s.stop) (hstart : BetweenChars line text s.start)
    (hstop : BetweenChars line text s.stop) :
    ∃ drawn, s.underline line text = .ok drawn ∧ Underlined s line text drawn := by
  rw [Span.underline_of_lt hs hlimit]
  split
  · next htouch =>
    obtain ⟨before, met, after, hsplit, hne, hfirst, hlast, hbefore, hmet, hafter⟩ :=
      exists_split_cells hline hs htouch.1 htouch.2 hstart hstop
    have hcells : before.length + met.length ≤ text.length + 1 := by
      have hall := congrArg List.length hsplit
      simp only [cells, List.length_append, length_charCells, List.length_singleton] at hall
      omega
    have hpos := List.length_pos_iff.mpr hne
    -- The columns of both ends are counted in cells, and there is at least one between them.
    have hwidth : max (before.length + met.length) (before.length + 1) - before.length =
        met.length := by
      omega
    rw [hfirst, hlast, hwidth]
    obtain ⟨indent, hindent⟩ := Span.exists_repeated (c := ' ')
      (show before.length ≤ widthLimit by omega)
    obtain ⟨marks, hmarks⟩ := Span.exists_marks (s.start < line.start) (line.stop + 1 < s.stop)
      (show met.length ≤ widthLimit + 2 by omega)
    obtain ⟨hcount, hglyphs⟩ := Span.glyphs_of_marks hpos hmarks
    rw [hindent, hmarks, Span.eq_of_repeated hindent]
    exact ⟨_, rfl, .met hs hsplit hne hbefore hmet hafter hcount hglyphs⟩
  · next htouch =>
    -- It stops before the first cell, or starts after the last.
    refine ⟨[], rfl, .unmet hs fun t ht => ?_⟩
    have hcell := within_cells ht
    rw [Span.meets_iff]
    omega

/-- An empty span is drawn where it is, if that is on the line. -/
theorem exists_underlined_of_eq (hfits : text.length ≤ widthLimit)
    (hlimit : line.stop + 1 < offsetLimit) (hs : s.start = s.stop)
    (hstart : BetweenChars line text s.start) :
    ∃ drawn, s.underline line text = .ok drawn ∧ Underlined s line text drawn := by
  rw [Span.underline_of_eq hs hlimit]
  split
  · next hon =>
    obtain ⟨xs, ys, rfl, hfirst⟩ := hstart.exists_append hon.2
    rw [Nat.max_eq_left hon.1] at hfirst
    rw [List.length_append] at hfits
    obtain ⟨indent, hindent⟩ := Span.exists_repeated (c := ' ')
      (show xs.length ≤ widthLimit by omega)
    obtain ⟨t, after, hcell, ht⟩ : ∃ t after,
        cells (line.start + Text.byteLength xs) ys = t :: after ∧
          t.start = line.start + Text.byteLength xs := by
      cases ys <;> exact ⟨_, _, rfl, rfl⟩
    have hsplit : cells line.start (xs ++ ys) = charCells line.start xs ++ t :: after := by
      rw [cells_append, hcell]
    rw [← hfirst, Text.column_byteLength_append, hindent, Span.eq_of_repeated hindent,
      ← length_charCells line.start xs]
    exact ⟨_, rfl, .point hs hon.1 hon.2 hsplit (ht.trans hfirst)⟩
  · next hon => exact ⟨[], rfl, .beside hs hon⟩

/-- Underlines mark the columns that are covered. A line is as long as its text, which is not too
long to exist, and there are offsets after it. A span does not stop before it starts, and where its
ends fall on the line, they stand between two characters. Such a span is drawn below the line as a
mark in each cell that it meets, after spaces up to the first one, with the glyphs of a span that
may go on beyond the line; an empty span is drawn as a `V`. Nothing is drawn just where no cell is
met, and nothing is wider than the text and its terminator. -/
theorem underline_marks_cells (s line : Span) (text : List Char)
    (hline : line.stop = line.start + Text.byteLength text)
    (hfits : Text.byteLength text ≤ widthLimit) (hlimit : line.stop + 1 < offsetLimit)
    (hs : s.start ≤ s.stop) (hstart : BetweenChars line text s.start)
    (hstop : BetweenChars line text s.stop) :
    ∃ drawn, s.underline line text = .ok drawn ∧ Underlined s line text drawn ∧
      drawn.length ≤ text.length + 1 ∧
      (s.start < s.stop → (drawn = [] ↔ ∀ t ∈ cells line.start text, ¬s.Meets t)) := by
  have hshort : text.length ≤ widthLimit := Nat.le_trans (Text.length_le_byteLength text) hfits
  have hdrawn : ∃ drawn, s.underline line text = .ok drawn ∧ Underlined s line text drawn := by
    rcases Nat.lt_or_eq_of_le hs with hlt | heq
    · exact exists_underlined_of_lt hline hshort hlimit hlt hstart hstop
    · exact exists_underlined_of_eq hshort hlimit heq hstart
  obtain ⟨drawn, hdrawn, hunderlined⟩ := hdrawn
  exact ⟨drawn, hdrawn, hunderlined, hunderlined.length_le, hunderlined.eq_nil_iff⟩

/-- A span from the second character of a line to beyond its terminator, where that character takes
two bytes. -/
theorem underline_marks_cells_beyond :
    BetweenChars ⟨4, 8⟩ "aäb".toList 5 ∧ BetweenChars ⟨4, 8⟩ "aäb".toList 10 ∧
      (⟨5, 10⟩ : Span).underline ⟨4, 8⟩ "aäb".toList = .ok [' ', '\\', '-', '-'] ∧
      Underlined ⟨5, 10⟩ ⟨4, 8⟩ "aäb".toList [' ', '\\', '-', '-'] := by
  have hstart : BetweenChars ⟨4, 8⟩ "aäb".toList 5 := fun _ _ => by decide
  have hstop : BetweenChars ⟨4, 8⟩ "aäb".toList 10 := fun _ hle => absurd hle (by decide)
  obtain ⟨drawn, hdrawn, hunderlined, -⟩ := underline_marks_cells ⟨5, 10⟩ ⟨4, 8⟩ "aäb".toList
    (by decide) (by decide) (by decide) (by decide) hstart hstop
  have heq : (⟨5, 10⟩ : Span).underline ⟨4, 8⟩ "aäb".toList = .ok [' ', '\\', '-', '-'] := by rfl
  rw [heq] at hdrawn
  cases hdrawn
  exact ⟨hstart, hstop, heq, hunderlined⟩

end ParseTrail
