import ParseTrail.Proofs.Blame
import ParseTrail.Proofs.Report
import ParseTrail.Proofs.Text.Places
import ParseTrail.Proofs.Uses

/-!
# Positions in reports

A report tells where a parse got furthest by an offset, by a line number and a column, and by the
line itself. All of these refer to the whole text, however much of it was read, kept or released
before the parse.

- `Line.around_eq`: the line around an offset, told from how the text falls into lines;
- `Parser.Diagnoses.exists_line`: the line of a report is that around the furthest start;
- `report_positions_absolute`: the positions of a report are those of the text.
-/

namespace ParseTrail

variable {cs before rest lines line terminator : List Char} {base n : Nat}

/-- The line around an offset is the one it lies on. -/
theorem Line.around_eq (h : Text.OnLine cs n lines line terminator rest) :
    Line.around 0 cs n =
      { number := Text.newlines lines + 1
        span := ⟨Text.byteLength lines, Text.byteLength lines + Text.byteLength line⟩
        text := String.ofList line } := by
  rw [Line.around, Nat.sub_zero, h.floorBoundary.lineBounds_eq, h.floorBoundary.newlines_startingBefore]
  simp only [Nat.zero_add, h.text, Text.slice?_append, Option.getD_some, Span.of,
    Nat.max_eq_left (Nat.le_add_right _ _)]

/-! ### The line of a report -/

namespace Cursor

/-- The text kept is a part of the text shown. -/
theorem Shows.kept_within {c : Cursor} (h : c.Shows base before rest) :
    base ≤ c.origin ∧ c.origin + c.buffered ≤ base + Text.byteLength (before ++ rest) := by
  obtain ⟨gone, kept, near, far, hparts, rfl, rfl⟩ := h
  rw [hparts.origin, hparts.buffered_eq]
  simp only [Text.byteLength_append]
  omega

/-- A cursor at the start of a text, or of a source that delivers it. -/
inductive Opens (text : String) : Cursor → Prop
  | ofText : Opens text (.ofText text)
  | ofReader {capacity : Nat} {src : Source} {c : Cursor} : src.Delivers text.toList →
    Cursor.ofReader capacity src = .ok c → Opens text c

theorem Opens.standsIn {text : String} {c : Cursor} (h : Opens text c) :
    c.StandsIn 0 text.toList := by
  cases h with
  | ofText => exact (shows_ofText text).standsIn
  | ofReader hsrc hc =>
    -- The capacity makes no difference to the cursor.
    rw [Cursor.ofReader] at hc
    split at hc
    · cases hc
    · cases hc
      exact (shows_ofSource hsrc).standsIn

end Cursor

/-- What a report tells of the place that the parse got to. -/
theorem Report.place_of_ofTrail {t : Trail} {shown : Line} {report : Report}
    (h : Report.ofTrail t shown = .ok report) :
    report.furthest = t.furthestStart ∧ report.line = shown ∧
      report.column = Text.column shown.text.toList shown.span.start t.furthestStart + 1 := by
  rw [Report.ofTrail] at h
  rcases hcolumn : shown.columnOf t.furthestStart with cause | column
  · rw [hcolumn] at h
    cases h
  · rw [hcolumn] at h
    cases h
    rw [Line.columnOf] at hcolumn
    split at hcolumn
    · exact ⟨rfl, rfl, (Except.ok.inj hcolumn).symm⟩
    · cases hcolumn

variable {α : Type} {g : Grammar Empty α} {fuel : Nat} {p : Parser Empty α} {c : Cursor}
  {diag : Diagnosis}

/-- The report of a failed parse shows the line around an offset of the text. -/
theorem Parser.Diagnoses.exists_line (h : p.Diagnoses g fuel c diag) (hc : c.Shows base before rest) :
    ∃ t : Trail, base ≤ t.furthestStart ∧
      t.furthestStart ≤ base + Text.byteLength (before ++ rest) ∧
      Report.ofTrail t (Line.around base (before ++ rest) t.furthestStart) = .ok diag.report := by
  obtain ⟨config, f, t, back, line, e, hout, -, -, hreturn, hline, hreport⟩ := h.exists_outcome
  -- The session at the cursor is compared with itself, for what two of them have in common.
  have hagree := alike_run_of_sameText g fuel p _ _ _ (together_start hc hc config)
  rw [hout] at hagree
  obtain _ | ⟨-, hend⟩ := hagree
  obtain ⟨hback, -, hstay⟩ := hend.returnTo
  rw [hback, Except.ok.injEq] at hreturn
  subst hreturn
  obtain ⟨before', rest', htext, hshows, -⟩ := hstay.abreast
  have hkept : t.trail.KeptBy { t.cursor.closeScope with index := c.index } := hend.firstKept
  have hwithin := hshows.kept_within
  have hfurthest := hkept.furthestStart
  obtain ⟨d, hline', -⟩ := hshows.lineAt hfurthest.1 hfurthest.2
  rw [hline', Prod.mk.injEq, Except.ok.injEq] at hline
  rw [htext]
  exact ⟨t.trail, by omega, by omega, hline.1 ▸ hreport⟩

/-- The positions of a report are those of the whole text, whatever happened before. However a
cursor that was opened at the start of a text has been used, a parse that fails there tells the line
number and the column of the furthest offset, as they are counted from the start of the text. And it
shows the line of the text that this offset lies on, without its terminator, and where that line
lies. -/
theorem report_positions_absolute (text : String) (opened c : Cursor) (uses : List Use)
    (hopened : Cursor.Opens text opened) (huses : opened.after uses = .ok c) {α : Type}
    (g : Grammar Empty α) (fuel : Nat) (p : Parser Empty α) (diag : Diagnosis)
    (hdiag : p.Diagnoses g fuel c diag) :
    (diag.report.line.number, diag.report.column) =
        Text.lineColumn text.toList diag.report.furthest ∧
      ∃ lines line terminator rest,
        Text.OnLine text.toList diag.report.furthest lines line terminator rest ∧
        diag.report.line.text = String.ofList line ∧
        diag.report.line.span =
          ⟨Text.byteLength lines, Text.byteLength lines + Text.byteLength line⟩ := by
  obtain ⟨before, rest, htext, hc⟩ := hopened.standsIn.after huses
  obtain ⟨t, -, hlast, hreport⟩ := hdiag.exists_line hc
  rw [← htext, Nat.zero_add] at hlast
  obtain ⟨lines, line, terminator, after, hon⟩ := Text.exists_onLine hlast
  rw [← htext, Line.around_eq hon] at hreport
  obtain ⟨hfurthest, hline, hcolumn⟩ := Report.place_of_ofTrail hreport
  rw [hfurthest]
  refine ⟨?_, lines, line, terminator, after, hon, by rw [hline], by rw [hline]⟩
  rw [hon.lineColumn_eq, hline, hcolumn, String.toList_ofList]

/-- A source of two lines that is cut inside the first character and inside the terminator. -/
def twoLines : Source :=
  [.data [0xC3], .data [0xA9, 0x0D], .error ⟨.interrupted, "again"⟩, .data [0x0A, 0x62, 0x63]]

theorem delivers_twoLines : twoLines.Delivers "é\r\nbc".toList := by
  constructor
  · intro event hevent
    simp only [twoLines, List.mem_cons, List.not_mem_nil, or_false] at hevent
    rcases hevent with rfl | rfl | rfl | rfl
    · trivial
    · trivial
    · rfl
    · trivial
  · rfl

/-- The diagnosis that an invocation gives, if it fails with one. -/
def diagnosis? {β : Type} : Except Halt (Except ParseError β × Cursor) → Option Diagnosis
  | .ok (.error (.failed diag), _) => some diag
  | _ => none

theorem exists_of_diagnosis?_eq_some {β : Type} {o : Except Halt (Except ParseError β × Cursor)}
    (h : diagnosis? o = some diag) : ∃ d, o = .ok (.error (.failed diag), d) := by
  rw [diagnosis?.eq_def] at h
  split at h
  · cases h
    exact ⟨_, rfl⟩
  · cases h

/-- After the first line is read and released, a parse gets to the second letter of the second line.
-/
theorem report_positions_absolute_twoLines :
    ∃ c diag, Cursor.Opens "é\r\nbc" (Cursor.ofSource twoLines 0) ∧
      (Cursor.ofSource twoLines 0).after [.read 3, .release] = .ok c ∧ c.origin = 4 ∧
      (Parser.andThen (.literal "b") (.literal "x")).Diagnoses ruleless 3 c diag ∧
      diag.report.furthest = 5 ∧ diag.report.line = ⟨2, ⟨4, 6⟩, "bc"⟩ ∧
      (diag.report.line.number, diag.report.column) = Text.lineColumn "é\r\nbc".toList 5 := by
  have hreader : Cursor.ofReader 1 twoLines = .ok (Cursor.ofSource twoLines 0) := rfl
  have hopened : Cursor.Opens "é\r\nbc" (Cursor.ofSource twoLines 0) :=
    .ofReader delivers_twoLines hreader
  have hchecked : (((Cursor.ofSource twoLines 0).after [.read 3, .release]).toOption.bind fun c =>
      (diagnosis? (((Parser.andThen (.literal "b") (.literal "x")).parse ruleless 3 {}).run c)).map
        fun diag => (c.origin, diag.report.furthest, diag.report.line)) =
      some (4, 5, ⟨2, ⟨4, 6⟩, "bc"⟩) := by
    decide +kernel
  obtain ⟨c, hc, hdiagnosis⟩ := Option.bind_eq_some_iff.mp hchecked
  obtain ⟨diag, hdiag, heq⟩ := Option.map_eq_some_iff.mp hdiagnosis
  rw [Prod.mk.injEq, Prod.mk.injEq] at heq
  obtain ⟨horigin, hfurthest, hline⟩ := heq
  obtain ⟨d, hparse⟩ := exists_of_diagnosis?_eq_some hdiag
  have hafter : (Cursor.ofSource twoLines 0).after [.read 3, .release] = .ok c := by
    cases hafter : (Cursor.ofSource twoLines 0).after [.read 3, .release] with
    | error h =>
      rw [hafter] at hc
      cases hc
    | ok e =>
      rw [hafter] at hc
      cases hc
      rfl
  have hdiag : (Parser.andThen (.literal "b") (.literal "x")).Diagnoses ruleless 3 c diag :=
    .inl ⟨{}, d, hparse⟩
  have hplace :=
    (report_positions_absolute "é\r\nbc" _ c _ hopened hafter ruleless 3 _ diag hdiag).1
  rw [hfurthest] at hplace
  exact ⟨c, diag, hopened, hafter, horigin, hdiag, hfurthest, hline, hplace⟩

end ParseTrail
