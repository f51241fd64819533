import ParseTrail.Proofs.Positions
import ParseTrail.Proofs.Recording

/-!
# Marks below the reported line

A report gives the column of the furthest offset, and draws the attempts that start there as marks
below the line. Both go by the characters of the line before the offset, so that the marks begin in
the column given. But the terminator of a line has one column below it, also where it is a carriage
return and a newline: of an attempt that starts between these two nothing is drawn.

- `Span.underline_eq`: what is drawn of a span that does not start before the line;
- `Trail.Spanned`: attempts stop no earlier than they start;
- `entries_marked_at_column`: how the attempts that start furthest are shown.
-/

namespace ParseTrail

/-! ### Drawing -/

/-- The text draws marks after a number of spaces. -/
def MarkedAfter (spaces : Nat) (drawn : List Char) : Prop :=
  ∃ marks, marks ≠ [] ∧ ' ' ∉ marks ∧ drawn = List.replicate spaces ' ' ++ marks

namespace Span

variable {s line : Span} {text drawn : List Char} {width : Nat} {c : Char}

/-- Nothing can be drawn below a line after which there are no offsets. -/
theorem underline_of_limit (hlimit : offsetLimit ≤ line.stop + 1) :
    s.underline line text = .error .limitExceeded := by
  simp only [underline, ge_iff_le, if_pos hlimit]
  rfl

/-- What is drawn of a span that is not empty. -/
theorem underline_of_lt (hs : s.start < s.stop) (hlimit : line.stop + 1 < offsetLimit) :
    s.underline line text =
      if s.start ≤ line.stop ∧ line.start < s.stop then do
        let indent ← repeated ' ' (Text.column text line.start (max s.start line.start))
        let drawn ← marks (max (Text.column text line.start (min s.stop (line.stop + 1)))
            (Text.column text line.start (max s.start line.start) + 1) -
              Text.column text line.start (max s.start line.start))
          (s.start < line.start) (line.stop + 1 < s.stop)
        return indent ++ drawn
      else .ok [] := by
  have hempty : s.isEmpty = false := by simp [isEmpty, Nat.ne_of_lt hs]
  simp only [underline, ge_iff_le, if_neg (Nat.not_le_of_gt hlimit), hempty]
  by_cases htouch : s.start ≤ line.stop ∧ line.start < s.stop
  · simp [htouch, Nat.lt_succ_of_le htouch.1]
  · have hmiss : ¬(s.start < line.stop + 1 ∧ line.start < s.stop) := by omega
    simp only [if_neg htouch, ← Bool.decide_and, hmiss, decide_false, Bool.not_false, if_true]
    rfl

/-- What is drawn of an empty span. -/
theorem underline_of_eq (hs : s.start = s.stop) (hlimit : line.stop + 1 < offsetLimit) :
    s.underline line text =
      if line.start ≤ s.start ∧ s.start ≤ line.stop then do
        let indent ← repeated ' ' (Text.column text line.start s.start)
        return indent ++ ['V']
      else .ok [] := by
  have hempty : s.isEmpty = true := by simp [isEmpty, hs]
  simp only [underline, ge_iff_le, if_neg (Nat.not_le_of_gt hlimit), hempty]
  by_cases hon : line.start ≤ s.start ∧ s.start ≤ line.stop
  · have hinside : ¬(s.start < line.start ∨ line.stop + 1 ≤ s.start) := by omega
    simp only [if_pos hon, ← Bool.decide_or, hinside, decide_false]
    rfl
  · have houtside : s.start < line.start ∨ line.stop + 1 ≤ s.start := by omega
    simp only [if_neg hon, ← Bool.decide_or, houtside, decide_true, if_true]
    rfl

/-- The marks of a span that starts on the line or right after it. -/
def marksOn (s line : Span) (text : List Char) : Except Fault (List Char) :=
  if s.isEmpty then .ok ['V']
  else
    let first := Text.column text line.start s.start
    let last := Text.column text line.start (min s.stop (line.stop + 1))
    marks (max last (first + 1) - first) false (s.stop > line.stop + 1)

/-- What is drawn of a span that does not start before the line. -/
theorem underline_eq (hs : s.start ≤ s.stop) (hfirst : line.start ≤ s.start) :
    s.underline line text =
      if offsetLimit ≤ line.stop + 1 then .error .limitExceeded
      else if line.stop < s.start then .ok []
      else do
        let indent ← repeated ' ' (Text.column text line.start s.start)
        let drawn ← s.marksOn line text
        return indent ++ drawn := by
  by_cases hlimit : offsetLimit ≤ line.stop + 1
  · rw [if_pos hlimit, underline_of_limit hlimit]
  · rw [if_neg hlimit, marksOn]
    have hbelow : line.stop + 1 < offsetLimit := Nat.lt_of_not_le hlimit
    -- Spans with characters and those without are drawn in different ways.
    rcases Nat.lt_or_eq_of_le hs with hlt | heq
    · have hempty : s.isEmpty = false := by simp [isEmpty, Nat.ne_of_lt hlt]
      have hmax : max s.start line.start = s.start := Nat.max_eq_left hfirst
      have hstop : line.start < s.stop := Nat.lt_of_le_of_lt hfirst hlt
      rw [underline_of_lt hlt hbelow]
      by_cases hbeyond : line.stop < s.start
      · rw [if_pos hbeyond, if_neg (by omega)]
      · have hcut : ¬s.start < line.start := Nat.not_lt.mpr hfirst
        rw [if_neg hbeyond, if_pos ⟨Nat.le_of_not_lt hbeyond, hstop⟩, hempty, hmax]
        simp [hcut]
    · have hempty : s.isEmpty = true := by simp [isEmpty, heq]
      rw [underline_of_eq heq hbelow, hempty]
      by_cases hbeyond : line.stop < s.start
      · rw [if_pos hbeyond, if_neg (by omega)]
      · rw [if_neg hbeyond, if_pos ⟨hfirst, Nat.le_of_not_lt hbeyond⟩]
        rfl

/-- What is repeated is the character, as often as asked for. -/
theorem eq_of_repeated (h : repeated c width = .ok drawn) : drawn = List.replicate width c := by
  rw [repeated] at h
  split at h
  · cases h
    rfl
  · cases h

/-- There are marks, and they are no spaces. -/
theorem ne_space_of_marks {cutLeft cutRight : Bool} (h : marks width cutLeft cutRight = .ok drawn) :
    drawn ≠ [] ∧ ' ' ∉ drawn := by
  rw [marks] at h
  split at h
  · cases h
    cases cutLeft <;> cases cutRight <;> decide
  · rcases hmiddle : repeated '-' (width - 2) with cause | middle
    · rw [hmiddle] at h
      cases h
    · rw [hmiddle] at h
      cases h
      rw [eq_of_repeated hmiddle]
      refine ⟨List.cons_ne_nil _ _, ?_⟩
      cases cutLeft <;> cases cutRight <;> simp [List.mem_replicate]

/-- There are marks, and none of them is a space. -/
theorem ne_space_of_marksOn (h : s.marksOn line text = .ok drawn) : drawn ≠ [] ∧ ' ' ∉ drawn := by
  rw [marksOn] at h
  split at h
  · cases h
    decide
  · exact ne_space_of_marks h

/-- The marks begin in the column where the span starts. -/
theorem marked_of_underline (hs : s.start ≤ s.stop) (hfirst : line.start ≤ s.start)
    (hlast : s.start ≤ line.stop) (h : s.underline line text = .ok drawn) :
    MarkedAfter (Text.column text line.start s.start) drawn := by
  rw [underline_eq hs hfirst, if_neg (Nat.not_lt.mpr hlast)] at h
  split at h
  · cases h
  · rcases hindent : repeated ' ' (Text.column text line.start s.start) with cause | indent
    · rw [hindent] at h
      cases h
    · rcases hmarks : s.marksOn line text with cause | drawn'
      · rw [hindent, hmarks] at h
        cases h
      · rw [hindent, hmarks] at h
        cases h
        obtain ⟨hne, hspace⟩ := ne_space_of_marksOn hmarks
        exact ⟨drawn', hne, hspace, by rw [eq_of_repeated hindent]⟩

/-- Nothing is drawn past the column after the line. -/
theorem eq_nil_of_underline (hs : s.start ≤ s.stop) (hfirst : line.start ≤ s.start)
    (hlast : line.stop < s.start) (h : s.underline line text = .ok drawn) : drawn = [] := by
  rw [underline_eq hs hfirst, if_pos hlast] at h
  split at h
  · cases h
  · cases h
    rfl

/-- A run of characters can be drawn up to its limit. -/
theorem exists_repeated (h : width ≤ widthLimit) : ∃ drawn, repeated c width = .ok drawn :=
  ⟨_, if_pos h⟩

/-- So can marks, which have a glyph at each end apart from the run. -/
theorem exists_marks (cutLeft cutRight : Bool) (h : width ≤ widthLimit + 2) :
    ∃ drawn, marks width cutLeft cutRight = .ok drawn := by
  rw [marks]
  split
  · exact ⟨_, rfl⟩
  · obtain ⟨middle, hmiddle⟩ := exists_repeated (c := '-') (show width - 2 ≤ widthLimit by omega)
    rw [hmiddle]
    exact ⟨_, rfl⟩

/-- Below a line that is not too long to exist, every span is drawn. -/
theorem exists_underline_of_length (hs : s.start ≤ s.stop) (hlimit : line.stop + 1 < offsetLimit)
    (hlength : line.stop - line.start ≤ widthLimit) :
    ∃ drawn, s.underline line text = .ok drawn := by
  rcases Nat.lt_or_eq_of_le hs with hlt | heq
  · rw [underline_of_lt hlt hlimit]
    split
    · next htouch =>
      -- Both columns are no further than the end of the line, and one for the terminator.
      have hfirst := Text.column_le_sub text line.start (max s.start line.start)
      have hlast := Text.column_le_sub text line.start (min s.stop (line.stop + 1))
      obtain ⟨indent, hindent⟩ := exists_repeated (c := ' ')
        (show Text.column text line.start (max s.start line.start) ≤ widthLimit by omega)
      obtain ⟨drawn, hdrawn⟩ := exists_marks (s.start < line.start) (line.stop + 1 < s.stop)
        (show max (Text.column text line.start (min s.stop (line.stop + 1)))
            (Text.column text line.start (max s.start line.start) + 1) -
              Text.column text line.start (max s.start line.start) ≤ widthLimit + 2 by omega)
      rw [hindent, hdrawn]
      exact ⟨_, rfl⟩
    · exact ⟨_, rfl⟩
  · rw [underline_of_eq heq hlimit]
    split
    · next hon =>
      have hcolumn := Text.column_le_sub text line.start s.start
      obtain ⟨indent, hindent⟩ := exists_repeated (c := ' ')
        (show Text.column text line.start s.start ≤ widthLimit by omega)
      rw [hindent]
      exact ⟨_, rfl⟩
    · exact ⟨_, rfl⟩

/-- Below a line that ends early enough in the text, every span is drawn. -/
theorem exists_underline (hs : s.start ≤ s.stop) (hstop : line.stop ≤ widthLimit) :
    ∃ drawn, s.underline line text = .ok drawn := by
  refine exists_underline_of_length hs ?_ (Nat.le_trans (Nat.sub_le _ _) hstop)
  rw [offsetLimit]
  rw [widthLimit] at hstop
  omega

end Span

/-! ### What attempts span -/

namespace Trail

variable {t u : Trail}

/-- No attempt stops before it starts. -/
def Spanned (t : Trail) : Prop :=
  ∀ id < t.size, t.startOf id ≤ t.stopOf id

namespace Spanned

/-- The extents of attempts tell whether one stops before it starts. -/
theorem of_extent (h : t.Spanned) (hsize : u.size = t.size) (hextent : u.extent? = t.extent?) :
    u.Spanned := by
  intro id hid
  rw [hsize] at hid
  rw [startOf_congr (congrFun hextent id), stopOf_congr (congrFun hextent id)]
  exact h id hid

/-- A new attempt stops where it starts. -/
theorem push (h : t.Spanned) (parent offset : Nat) (label : String) (anchor : Bool) :
    (t.push parent offset label anchor).2.Spanned := by
  intro id hid
  rw [size_push] at hid
  rw [startOf_eq_extent, stopOf_eq_extent, extent?_push]
  by_cases hnew : id = t.size
  · rw [if_pos hnew]
    exact Nat.le_refl offset
  · rw [if_neg hnew, ← startOf_eq_extent, ← stopOf_eq_extent]
    exact h id (by omega)

/-- To close an attempt does not take its end before its start. -/
theorem close (h : t.Spanned) (id stop : Nat) (failed : Bool) :
    (t.close id stop failed).Spanned := by
  intro j hj
  rw [(sameStarts_close t id stop failed).size] at hj
  rw [startOf_close]
  by_cases hid : j = id
  · subst hid
    rw [stopOf_close hj]
    exact Nat.le_max_right _ _
  · rw [stopOf_congr (extent?_close_of_ne hid stop failed)]
    exact h j hj

end Spanned

end Trail

namespace Session

variable {s t : Session}

/-- The root stops where it starts. -/
theorem spanned_start (c : Cursor) (config : Config) : (Session.start c config).trail.Spanned := by
  intro id hid
  -- There is nothing but the root.
  rw [show id = 0 from Nat.lt_one_iff.mp hid]
  exact Nat.le_refl c.position

/-- To leave an attempt closes it, and changes no other extent. -/
theorem spanned_left (h : s.trail.Spanned) (id stop : Nat) (failed : Bool) (shape : Shape) :
    (s.left id stop failed shape).trail.Spanned := by
  obtain ⟨u, hu, -, htrail⟩ := s.left_of_steps (P := Trail.Spanned) shape (h.close id stop failed)
    (fun u hu => hu.of_extent (Trail.sameStarts_clearChildren u id).size
      (Trail.extent?_clearChildren u id))
    (fun u hu => hu.of_extent (Trail.sameStarts_dissolveToAnchor u id).size
      (Trail.marked_dissolveToAnchor u id).1)
  rcases htrail with htrail | htrail
  · rw [htrail]
    exact hu
  · rw [htrail]
    exact hu.of_extent (Trail.sameStarts_dissolve u id).size (Trail.extent?_dissolve u id)

end Session

/-- Sessions keep their attempts from stopping before they start. -/
def spanning : Course where
  ready _ s := s.trail.Spanned
  leads _ t := t.trail.Spanned
  excuses _ := False

/-- A recorded action leaves its attempt with a span. -/
theorem spanning_recorded {β : Type} (label : String) (shape : Shape) {x : Action β}
    (hx : ∀ b, spanning.Follows b x) (b : Nat) :
    spanning.Follows b (Action.recorded label shape x) := by
  intro s r u hs hu _
  have hentered : (s.entered label shape.anchor).trail.Spanned :=
    hs.push s.current s.cursor.position label shape.anchor
  cases recorded_of_outcome hu with
  | tooDeep _ => exact hs
  | matched ht => exact Session.spanned_left (hx b _ _ _ hentered ht fun _ _ => id) _ _ false shape
  | @failed f t d ht hreturn =>
    have ht := hx b _ _ _ hentered ht fun _ _ => id
    exact Session.spanned_left (s := { t with cursor := d }) ht _ _ true shape

/-- The cursor has no part in the spans of attempts that are closed. -/
theorem cursorFree_spanning : spanning.CursorFree where
  trans _ := id
  ready_of_leads _ := id
  anywhere := id
  no_excuse _ := id
  moved _ := id
  start _ := Session.spanned_start
  reject offset label := by
    intro s r t hs ht _
    rw [outcome_reject] at ht
    cases ht
    exact (hs.push s.current offset label false).close _ _ true
  recorded := spanning_recorded
  entered label anchor hs := hs.push _ _ label anchor

/-! ### Reports -/

namespace Report

variable {t : Trail} {line : Line} {report : Report} {e : ReportEntry}

/-- What is told of an entry, next to its marks. -/
def told (e : ReportEntry) : String :=
  s!"{Trail.outcomeWord e.failed}: {e.label}"

/-- An entry is shown by what is told of it, after its marks if there are any. -/
theorem renderEntry_eq (line : Line) (e : ReportEntry) :
    renderEntry line e = (line.underline e.span).map fun drawn =>
      "\n  " ++ if drawn.isEmpty then told e else drawn ++ " " ++ told e := by
  rw [renderEntry]
  cases line.underline e.span <;> rfl

/-- What is shown is shown with what is drawn below the line. -/
theorem exists_underline_of_renderEntry {shown : String} (h : renderEntry line e = .ok shown) :
    ∃ drawn, e.span.underline line.span line.text.toList = .ok drawn ∧
      shown = "\n  " ++ if drawn.isEmpty then told e else String.ofList drawn ++ " " ++ told e := by
  rw [renderEntry_eq, Line.underline] at h
  cases hdrawn : e.span.underline line.span line.text.toList with
  | error cause =>
    rw [hdrawn] at h
    cases h
  | ok drawn =>
    rw [hdrawn] at h
    cases h
    refine ⟨drawn, rfl, ?_⟩
    simp

/-- An entry is shown after marks that begin in a column, from 1. -/
def ShownAt (e : ReportEntry) (column : Nat) (shown : String) : Prop :=
  ∃ drawn, MarkedAfter (column - 1) drawn ∧
    shown = "\n  " ++ (String.ofList drawn ++ " " ++ told e)

end Report

namespace Parser

variable {α : Type} {g : Grammar Empty α} {fuel : Nat} {p : Parser Empty α} {c : Cursor}
  {diag : Diagnosis} {e : ReportEntry}

/-- What a report shows does not stop before it starts. -/
theorem Diagnoses.start_le_stop (h : p.Diagnoses g fuel c diag) (he : e ∈ diag.report.entries) :
    e.span.start ≤ e.span.stop := by
  obtain ⟨config, f, s, -, line, -, hout, -, -, -, -, hreport⟩ := h.exists_outcome
  have hready := ((Session.orderly_start c.openScope config).run hout).orderly.ready
  have hspanned : s.trail.Spanned :=
    cursorFree_spanning.kept.run g spanning_recorded fuel p 0 _ _ s
      (Session.spanned_start c.openScope config) hout fun _ _ => id
  have hsize : 0 < s.trail.size := Nat.lt_of_le_of_lt (Nat.zero_le _) hready.current_lt
  rw [Report.entries_of_ofTrail hreport, Report.mem_entriesOf hready.linked hsize] at he
  obtain ⟨x, a, hx, -, ha, rfl⟩ := he
  have hlt : x < s.trail.size :=
    ((hready.linked.mem_preOrder hsize).mp (List.mem_of_mem_tail hx)).lt_size hready.linked hsize
  have hle := hspanned x hlt
  rwa [Trail.startOf, Trail.stopOf, ha] at hle

end Parser

/-- The marks stand in the column that the report gives. However a cursor that was opened at the
start of a text has been used, and whichever parser fails there, each entry of the report that
starts at the furthest offset is shown after marks which begin in the column of that offset. There
is one exception: if the offset lies between a carriage return and a newline, no mark is drawn. A
text that is not too long to exist can be drawn below. -/
theorem entries_marked_at_column (text : String) (opened c : Cursor) (uses : List Use)
    (hopened : Cursor.Opens text opened) (huses : opened.after uses = .ok c) {α : Type}
    (g : Grammar Empty α) (fuel : Nat) (p : Parser Empty α) (diag : Diagnosis)
    (hdiag : p.Diagnoses g fuel c diag) (e : ReportEntry) (he : e ∈ diag.report.entries)
    (hstart : e.span.start = diag.report.furthest) :
    (Text.byteLength text.toList ≤ widthLimit →
        ∃ shown, Report.renderEntry diag.report.line e = .ok shown) ∧
      ∀ shown, Report.renderEntry diag.report.line e = .ok shown →
        (¬Text.WithinTerminator text.toList diag.report.furthest →
          Report.ShownAt e diag.report.column shown) ∧
        (Text.WithinTerminator text.toList diag.report.furthest →
          shown = "\n  " ++ Report.told e) := by
  have hspan := hdiag.start_le_stop he
  -- The report is on the line of the text that the furthest offset lies on.
  obtain ⟨before, rest, htext, hc⟩ := hopened.standsIn.after huses
  obtain ⟨t, -, hlast, hreport⟩ := hdiag.exists_line hc
  rw [← htext, Nat.zero_add] at hlast
  obtain ⟨lines, line, terminator, after, hon⟩ := Text.exists_onLine hlast
  rw [← htext, Line.around_eq hon] at hreport
  obtain ⟨hfurthest, hline, hcolumn⟩ := Report.place_of_ofTrail hreport
  have hbeyond := hon.beyond_iff
  rw [hline, hcolumn, hfurthest]
  rw [hfurthest] at hstart
  have hfirst : (⟨Text.byteLength lines, Text.byteLength lines + Text.byteLength line⟩ : Span).start
      ≤ e.span.start := hstart ▸ hon.first
  constructor
  · intro hfits
    have hstop : Text.byteLength lines + Text.byteLength line ≤ widthLimit := by
      have hlength := congrArg Text.byteLength hon.text
      simp only [Text.byteLength_append] at hlength
      omega
    obtain ⟨drawn, hdrawn⟩ : ∃ drawn, e.span.underline
        ⟨Text.byteLength lines, Text.byteLength lines + Text.byteLength line⟩
        (String.ofList line).toList = .ok drawn :=
      Span.exists_underline hspan hstop
    rw [Report.renderEntry_eq, Line.underline, hdrawn]
    exact ⟨_, rfl⟩
  · intro shown hshown
    obtain ⟨drawn, hdrawn, rfl⟩ := Report.exists_underline_of_renderEntry hshown
    -- An entry starts past the end of its line just if it starts within the terminator.
    refine ⟨fun hinside => ?_, fun hwithin => ?_⟩
    · have hlast : e.span.start ≤ Text.byteLength lines + Text.byteLength line := by
        rw [hstart]
        exact Nat.le_of_not_lt (mt hbeyond.mp hinside)
      have hmarked := Span.marked_of_underline hspan hfirst hlast hdrawn
      refine ⟨drawn, by rwa [Nat.add_sub_cancel, ← hstart], ?_⟩
      obtain ⟨marks, hne, -, rfl⟩ := hmarked
      simp [hne]
    · have hlast : Text.byteLength lines + Text.byteLength line < e.span.start := by
        rw [hstart]
        exact hbeyond.mpr hwithin
      rw [Span.eq_nil_of_underline hspan hfirst hlast hdrawn]
      rfl

/-- A letter of two bytes is one column wide. -/
theorem entries_marked_at_column_letter :
    ∃ diag e, (Parser.andThen (.literal "é") (.literal "b")).Diagnoses ruleless 3
        (Cursor.ofText "éa") diag ∧ e ∈ diag.report.entries ∧ diag.report.furthest = 2 ∧
      ∃ shown, Report.renderEntry diag.report.line e = .ok shown ∧ Report.ShownAt e 2 shown := by
  have hchecked : (diagnosis? (((Parser.andThen (.literal "é") (.literal "b")).parse ruleless 3
      {}).run (Cursor.ofText "éa"))).map (fun diag =>
        (diag.report.furthest, diag.report.column, diag.report.entries)) =
      some (2, 2, [⟨⟨2, 3⟩, "\"b\"", true⟩]) := by
    decide +kernel
  obtain ⟨diag, hdiagnosis, heq⟩ := Option.map_eq_some_iff.mp hchecked
  obtain ⟨hfurthest, hcolumn, hentries⟩ : _ ∧ _ ∧ _ := by simpa using heq
  obtain ⟨d, hparse⟩ := exists_of_diagnosis?_eq_some hdiagnosis
  have hdiag : (Parser.andThen (.literal "é") (.literal "b")).Diagnoses ruleless 3
      (Cursor.ofText "éa") diag := .inl ⟨{}, d, hparse⟩
  have hmem : ⟨⟨2, 3⟩, "\"b\"", true⟩ ∈ diag.report.entries := by
    rw [hentries]
    exact List.mem_singleton_self _
  obtain ⟨hshown, hplace⟩ :=
    entries_marked_at_column "éa" _ _ [] .ofText rfl ruleless 3 _ diag hdiag _ hmem hfurthest.symm
  obtain ⟨shown, hshown⟩ := hshown (by decide)
  -- There is no carriage return in the text.
  have hinside : ¬Text.WithinTerminator "éa".toList diag.report.furthest := by
    rintro ⟨before, after, htext, -⟩
    have hreturn : '\r' ∈ "éa".toList := htext ▸ List.mem_append_right before List.mem_cons_self
    exact absurd hreturn (by decide)
  refine ⟨diag, _, hdiag, hmem, hfurthest, shown, hshown, ?_⟩
  rw [← hcolumn]
  exact (hplace shown hshown).1 hinside

/-- Where a carriage return is matched and the newline after it is not, the report gives the column
of the newline and draws nothing there. -/
theorem newline_is_not_marked :
    ∃ diag e, (Parser.andThen (.literal "a\r") (.literal "b")).Diagnoses ruleless 3
        (Cursor.ofText "a\r\nc") diag ∧ e ∈ diag.report.entries ∧
      e.span.start = diag.report.furthest ∧ diag.report.column = 3 ∧
      Report.renderEntry diag.report.line e = .ok "\n  failure: \"b\"" := by
  have hchecked : (diagnosis? (((Parser.andThen (.literal "a\r") (.literal "b")).parse ruleless 3
      {}).run (Cursor.ofText "a\r\nc"))).map (fun diag =>
        (diag.report.furthest, diag.report.column, diag.report.line, diag.report.entries)) =
      some (2, 3, ⟨1, ⟨0, 1⟩, "a"⟩, [⟨⟨2, 3⟩, "\"b\"", true⟩]) := by
    decide +kernel
  obtain ⟨diag, hdiagnosis, heq⟩ := Option.map_eq_some_iff.mp hchecked
  obtain ⟨hfurthest, hcolumn, hline, hentries⟩ : _ ∧ _ ∧ _ ∧ _ := by simpa using heq
  obtain ⟨d, hparse⟩ := exists_of_diagnosis?_eq_some hdiagnosis
  refine ⟨diag, ⟨⟨2, 3⟩, "\"b\"", true⟩, .inl ⟨{}, d, hparse⟩, ?_, hfurthest.symm, hcolumn, ?_⟩
  · rw [hentries]
    exact List.mem_singleton_self _
  · rw [hline]
    rfl

end ParseTrail
