import ParseTrail.Proofs.Cursor.Limits
import ParseTrail.Proofs.Session.Outlasting
import ParseTrail.Proofs.Session.Retention
import ParseTrail.Proofs.Underlining

/-!
# Reporting a failure

To report a failure, the line of the furthest start is cut out of the text kept, a column is counted
on it, and each entry is drawn below it. As long as there are offsets for all that the cursor keeps
or may pull, none of this can go wrong, wherever the cursor has been, except at the very end of all
offsets: the column below the terminator of the line needs an offset of its own.

- `Cursor.Made.sound`: cursors stand in the text that they keep, and count no more lines than bytes;
- `Cursor.WithinLimits.invocation`: after an invocation there are still offsets for everything;
- `Cursor.Sound.holds_lineAt`, `Cursor.Sound.countable_lineAt`: the line of an offset;
- `Report.exists_render`, `Report.render_of_limit`: when the entries of a report can be drawn;
- `failure_is_reported`: what becomes of an invocation that did not match;
- `report_past_last_offset`: a failure that cannot be shown.
-/

namespace ParseTrail

variable {c d : Cursor} {line : Line} {offset : Nat}

/-! ### Cursors that come about -/

namespace Cursor

/-- A cursor as it can be opened, and as operations and invocations leave it. -/
inductive Made : Cursor → Prop
  | ofText (text : String) : Made (.ofText text)
  | ofReader {capacity : Nat} {src : Source} {c : Cursor} :
    Cursor.ofReader capacity src = .ok c → Made c
  | ofSource (src : Source) (origin : Nat) : Made (.ofSource src origin)
  | perform {c d : Cursor} (request : Request) {reply : request.Reply} :
    Made c → c.perform request = .ok (reply, d) → Made d
  | invoke {c d : Cursor} (i : Invocation) {answer : Except ParseError i.Answer} :
    Made c → i.run c = .ok (answer, d) → Made d

/-- The cursor stands in the text that it keeps, and has counted no more lines than bytes. -/
structure Sound (c : Cursor) : Prop where
  inBounds : c.InBounds
  linesReleased : c.linesReleased ≤ c.origin

namespace Sound

/-- What extends a sound cursor is sound. -/
theorem of_extends (h : c.Sound) (hext : c.Extends d) : d.Sound where
  inBounds := hext.inBounds
  linesReleased := by
    rw [hext.linesReleased, hext.origin]
    exact h.linesReleased

/-- A release counts each newline that it lets go of, and that many bytes at least. -/
theorem release (h : c.Sound) : c.release.Sound where
  inBounds := h.inBounds.release
  linesReleased := by
    unfold Cursor.release
    by_cases hscope : c.scopes > 0
    · rw [if_pos hscope]
      exact h.linesReleased
    · obtain ⟨pre, post, htext, -, hstart⟩ := Text.exists_lineBounds_fst_eq c.text c.index
      rw [if_neg hscope, hstart]
      dsimp only
      -- Each newline among the characters released is one of their bytes.
      rw [htext, Text.startingBefore_byteLength_append]
      have hnewlines : Text.newlines pre ≤ pre.length := List.count_le_length
      have hlength := Text.length_le_byteLength pre
      have hbefore := h.linesReleased
      omega

end Sound

/-- An invocation adds to the text kept, and may then release some. -/
theorem InBounds.exists_extends_of_invocation (hc : c.InBounds) (i : Invocation)
    {answer : Except ParseError i.Answer} (h : i.run c = .ok (answer, d)) :
    ∃ e, c.Extends e ∧ (d = e ∨ d = e.release) := by
  obtain ⟨e, hext, hd⟩ :=
    Extends.outlasts.exists_of_invocation (fun _ _ hext hc => .closeScope (hext hc)) i h
  exact ⟨e, hext hc, hd⟩

/-- An invocation keeps a cursor within limits, as every operation does. -/
theorem WithinLimits.invocation (h : c.WithinLimits) (i : Invocation)
    {answer : Except ParseError i.Answer} (hd : i.run c = .ok (answer, d)) : d.WithinLimits := by
  obtain ⟨e, hlimits, rfl | rfl⟩ := outlasts_withinLimits.exists_of_invocation
    (fun _ _ hlimits h => (hlimits h.openScope).closeScope) i hd
  · exact hlimits h
  · exact (hlimits h).release

/-- Whatever is done with cursors, they stay sound. -/
theorem Made.sound (h : c.Made) : c.Sound := by
  induction h with
  | ofText text => exact ⟨inBounds_ofText text, Nat.le_refl 0⟩
  | @ofReader capacity src c h =>
    rw [Cursor.ofReader] at h
    split at h
    · cases h
    · cases h
      exact ⟨inBounds_ofSource src 0, Nat.le_refl 0⟩
  | ofSource src origin => exact ⟨inBounds_ofSource src origin, Nat.zero_le _⟩
  | perform request _ hd ih =>
    rcases Extends.or_release ih.inBounds request hd with hext | rfl
    · exact ih.of_extends hext
    · exact ih.release
  | invoke i _ hd ih =>
    obtain ⟨e, hext, rfl | rfl⟩ := ih.inBounds.exists_extends_of_invocation i hd
    · exact ih.of_extends hext
    · exact (ih.of_extends hext).release

end Cursor

/-! ### The line of a report -/

/-- The offset lies on the line or on its terminator. The line is as long as its text, and has no
more lines before it than bytes. -/
structure Line.Holds (line : Line) (offset : Nat) : Prop where
  length : line.span.stop = line.span.start + Text.byteLength line.text.toList
  number : line.number ≤ line.span.start + 1
  first : line.span.start ≤ offset
  last : offset ≤ line.span.stop + 1

/-- The column of the offset is at most two past the bytes of the line. -/
theorem Line.Holds.column_le (h : line.Holds offset) :
    Text.column line.text.toList line.span.start offset ≤
      Text.byteLength line.text.toList + 1 := by
  have hcolumn := Text.column_le_sub line.text.toList line.span.start offset
  have hlength := h.length
  have hlast := h.last
  omega

/-- The number of the line can be told, its end is an offset, and so is each column on it. -/
structure Line.Countable (line : Line) : Prop where
  number : line.number < offsetLimit
  stop : line.span.stop < offsetLimit
  columns : Text.byteLength line.text.toList + 2 < offsetLimit

namespace Cursor.Sound

/-- The line found for an offset of the text kept, between the lines before it and its terminator.
-/
theorem exists_onLine_of_lineAt (hc : c.Sound) (hoffset : c.Holds offset)
    (h : c.lineAt offset = (.ok line, d)) : ∃ lines inner terminator rest,
      Text.OnLine d.text (offset - d.origin) lines inner terminator rest ∧
      line = ⟨d.linesReleased + Text.newlines lines + 1,
        .of (d.origin + Text.byteLength lines)
          (d.origin + (Text.byteLength lines + Text.byteLength inner)), .ofList inner⟩ := by
  have hext : c.Extends d := by
    have hext := Cursor.Extends.lineAt offset hc.inBounds
    rwa [h] at hext
  obtain ⟨hfirst, hlast⟩ := hoffset
  -- Before the rest of the line was pulled, the offset rounded down to the same place as after.
  have hclamp : c.clamp offset = Text.floorBoundary d.text (offset - d.origin) := by
    have hwithin : offset - c.origin ≤ c.buffered := by omega
    obtain ⟨more, hmore⟩ := hext.text
    rw [Cursor.clamp, Nat.min_eq_left hwithin, ← hmore, hext.origin,
      Text.floorBoundary_append hwithin]
  have hwithin : offset - d.origin ≤ d.buffered := by
    have hgrown := hext.buffered_le
    rw [hext.origin]
    omega
  have hdclamp : d.clamp offset = c.clamp offset := by
    rw [hclamp, Cursor.clamp, Nat.min_eq_left hwithin]
  obtain ⟨lines, inner, terminator, rest, hon⟩ := Text.exists_onLine hwithin
  have hline : line = d.lineAround (c.clamp offset) offset := by
    rw [Cursor.lineAt] at h
    split at h
    · cases h
    · cases h
      rfl
  have hslice : Text.slice? d.text (Text.byteLength lines)
      (Text.byteLength lines + Text.byteLength inner) = some inner := by
    rw [hon.text, Text.slice?_append]
  refine ⟨lines, inner, terminator, rest, hon, ?_⟩
  rw [hline, Cursor.lineAround, Cursor.lineNumberAt, hdclamp, hclamp,
    hon.floorBoundary.lineBounds_eq, hon.floorBoundary.newlines_startingBefore]
  simp only [hslice, Option.getD_some]

/-- The offset lies on the line found for it. -/
theorem holds_lineAt (hc : c.Sound) (hoffset : c.Holds offset)
    (h : c.lineAt offset = (.ok line, d)) : line.Holds offset := by
  have hext : c.Extends d := by
    have hext := Cursor.Extends.lineAt offset hc.inBounds
    rwa [h] at hext
  have hreleased := (hc.of_extends hext).linesReleased
  have hfirst := hoffset.1
  obtain ⟨lines, inner, terminator, rest, hon, rfl⟩ := hc.exists_onLine_of_lineAt hoffset h
  have hnewlines : Text.newlines lines ≤ lines.length := List.count_le_length
  have hlength := Text.length_le_byteLength lines
  have hterminator : Text.byteLength terminator ≤ 2 := by
    cases hon.terminates with
    | newline _ => decide
    | returnNewline => decide
    | endOfText _ => decide
  have honfirst := hon.first
  have honlast := hon.last
  rw [hext.origin] at hreleased honfirst honlast ⊢
  constructor
  all_goals simp only [Span.of, String.toList_ofList]; omega

/-- A line of a cursor within limits can be counted: it is no longer than the text kept. -/
theorem countable_lineAt (hc : c.Sound) (hlimits : d.WithinLimits) (hoffset : c.Holds offset)
    (h : c.lineAt offset = (.ok line, d)) : line.Countable := by
  obtain ⟨lines, inner, terminator, rest, hon, rfl⟩ := hc.exists_onLine_of_lineAt hoffset h
  have hnewlines : Text.newlines lines ≤ lines.length := List.count_le_length
  have hlength := Text.length_le_byteLength lines
  have hwithin : Text.byteLength lines + Text.byteLength inner ≤ d.extent := by
    simp only [extent, buffered, hon.text, Text.byteLength_append]
    omega
  have hoffsets := hlimits.offsets
  have hnumbers := hlimits.numbers
  constructor
  all_goals simp only [Span.of, String.toList_ofList]; omega

end Cursor.Sound

/-! ### Drawing reports -/

namespace Report

variable {report : Report}

/-- If each of several computations succeeds, all of them do one after the other. -/
theorem exists_mapM {ε β γ : Type} {f : β → Except ε γ} {xs : List β}
    (h : ∀ x ∈ xs, ∃ y, f x = .ok y) : ∃ ys, xs.mapM f = .ok ys := by
  induction xs with
  | nil => exact ⟨[], rfl⟩
  | cons x xs ih =>
    obtain ⟨y, hy⟩ := h x List.mem_cons_self
    obtain ⟨ys, hys⟩ := ih fun x' hx' => h x' (List.mem_cons_of_mem x hx')
    refine ⟨y :: ys, ?_⟩
    rw [List.mapM_cons, hy, hys]
    rfl

/-- The entries can be drawn below a line that has an offset for its terminator. -/
theorem exists_render (hspan : ∀ e ∈ report.entries, e.span.start ≤ e.span.stop)
    (hlimit : report.line.span.stop + 1 < offsetLimit)
    (hlength : report.line.span.stop - report.line.span.start ≤ widthLimit) :
    ∃ shown, report.render = .ok shown := by
  obtain ⟨shown, hshown⟩ : ∃ shown, report.entries.mapM (renderEntry report.line) = .ok shown := by
    refine exists_mapM fun e he => ?_
    obtain ⟨drawn, hdrawn⟩ : ∃ drawn,
        e.span.underline report.line.span report.line.text.toList = .ok drawn :=
      Span.exists_underline_of_length (hspan e he) hlimit hlength
    rw [renderEntry_eq, Line.underline, hdrawn]
    exact ⟨_, rfl⟩
  rw [render, hshown]
  exact ⟨_, rfl⟩

/-- No entry can be drawn below a line that has none. -/
theorem render_of_limit (hlimit : offsetLimit ≤ report.line.span.stop + 1)
    (hentries : report.entries ≠ []) : report.render = .error .limitExceeded := by
  obtain ⟨e, es, hes⟩ := List.exists_cons_of_ne_nil hentries
  -- The first entry is drawn first, and already that fails.
  have hentry : renderEntry report.line e = .error .limitExceeded := by
    rw [renderEntry_eq, Line.underline, Span.underline_of_limit hlimit]
    rfl
  rw [render, hes, List.mapM_cons, hentry]
  rfl

/-- The report can be shown if there is an offset for the terminator of its line, and otherwise it
cannot, if there is anything to draw. -/
structure ShownInLimits (report : Report) : Prop where
  shown : report.line.span.stop + 1 < offsetLimit → ∃ shown, report.render = .ok shown
  limit : offsetLimit ≤ report.line.span.stop + 1 → report.entries ≠ [] →
    report.render = .error .limitExceeded

end Report

/-! ### Invocations that do not match -/

section

variable {α : Type} {g : Grammar Empty α} {fuel : Nat} {p : Parser Empty α} {config : Config}
  {f : Failure} {t : Session}

/-- A run of a parser keeps where the invocation started and where its attempts did. -/
theorem retained_of_run (hc : c.InBounds)
    (hrun : outcome (p.run g fuel) (Session.start c.openScope config) = .ok (.error f, t)) :
    ∃ back, t.cursor.closeScope.returnTo c.position = .ok back ∧ c.Extends back ∧
      back.Holds t.trail.furthestStart := by
  obtain ⟨hext, ht⟩ := retaining_run g fuel p (.start (c := c.openScope) hc config) hrun
  have hclosed : c.Extends t.cursor.closeScope := .closeScope hext
  exact ⟨_, hclosed.returnTo hc, hclosed.withIndex (Nat.le_trans hc hclosed.buffered_le),
    ht.kept.furthestStart⟩

/-- After a mismatch the invocation makes a diagnosis where it went back to. -/
theorem invoke_of_mismatch {back : Cursor}
    (hrun : outcome (p.run g fuel) (Session.start c.openScope config) = .ok (.error f, t))
    (hf : f.expectation?.isSome) (hback : t.cursor.closeScope.returnTo c.position = .ok back) :
    ∃ committed, Reading.invoke config (p.run g fuel) c =
      (Reading.diagnose t.trail committed back).map fun (err, d) => (.error err, d) := by
  have herror : ∃ committed, Reading.errorOf t.trail f back =
      Reading.diagnose t.trail committed back := by
    cases f with
    | expected _ => exact ⟨false, rfl⟩
    | committed _ => exact ⟨true, rfl⟩
    | tooDeep _ _ => cases hf
    | source _ => cases hf
  obtain ⟨committed, herror⟩ := herror
  refine ⟨committed, ?_⟩
  rw [invoke_eq, hrun]
  simp only [hback, herror]
  rcases Reading.diagnose t.trail committed back with halt | ⟨err, d⟩ <;> rfl

/-- A run of a parser at a cursor within limits ends at one, where no offset is too large. -/
theorem withinLimits_of_run (hc : c.InBounds) (hlimits : c.WithinLimits)
    {r : Except Failure (Value α)}
    (hrun : outcome (p.run g fuel) (Session.start c.openScope config) = .ok (r, t)) :
    t.cursor.WithinLimits ∧ t.cursor.position < offsetLimit := by
  have ht : t.cursor.WithinLimits := Cursor.outlasts_withinLimits.run hrun hlimits.openScope
  obtain ⟨hext, -⟩ := retaining_run g fuel p (.start (c := c.openScope) hc config) hrun
  exact ⟨ht, ht.position_lt hext.inBounds⟩

/-- How an invocation ends that did not match and recorded a trail. -/
inductive Reported {β : Type} (trail : Trail) :
    Except Halt (Except ParseError β × Cursor) → Prop
  /-- The source failed before the end of the line. -/
  | source (e : SourceError) (d : Cursor) : Reported trail (.ok (.error (.source e), d))
  /-- There is a report on the line of the furthest start. It can be shown, if the text of the line
  is not too long to exist. -/
  | failed (diag : Diagnosis) (d : Cursor) : diag.trail = trail →
    diag.report.line.Holds trail.furthestStart → diag.report.line.Countable →
    (Text.byteLength diag.report.line.text.toList ≤ widthLimit → diag.report.ShownInLimits) →
    Reported trail (.ok (.error (.failed diag), d))

/-- Reporting a failure goes wrong at the very end of all offsets only. Suppose that a parser does
not match at a cursor, however that came about, and that there are offsets and numbers for all that
the cursor keeps or may pull. Then the run ends at an offset, and the invocation goes back and cuts
out the line of the furthest start between two characters, unless the source fails before the end of
that line. The report on it can be made and shown, if only there is an offset for the terminator of
the line. -/
theorem failure_is_reported {α : Type} (g : Grammar Empty α) (fuel : Nat) (p : Parser Empty α)
    (config : Config) (c : Cursor) (hc : c.Made) (hlimits : c.WithinLimits) (f : Failure)
    (t : Session)
    (hrun : outcome (p.run g fuel) (Session.start c.openScope config) = .ok (.error f, t))
    (hf : f.expectation?.isSome) :
    t.cursor.position < offsetLimit ∧
      Reported t.trail (Reading.invoke config (p.run g fuel) c) := by
  have hsound := hc.sound
  obtain ⟨hend, hposition⟩ := withinLimits_of_run hsound.inBounds hlimits hrun
  obtain ⟨back, hback, hext, hholds⟩ := retained_of_run hsound.inBounds hrun
  obtain ⟨committed, hinvoke⟩ := invoke_of_mismatch hrun hf hback
  have hbacklimits : back.WithinLimits := Cursor.outlasts_withinLimits.moveTo hback hend.closeScope
  refine ⟨hposition, ?_⟩
  rw [diagnose_eq] at hinvoke
  rcases hlook : back.lineAt t.trail.furthestStart with ⟨e | line, d⟩
  · rw [hlook] at hinvoke
    rw [hinvoke]
    exact .source e d
  · have hbacksound := hsound.of_extends hext
    have hdlimits : d.WithinLimits := by
      have hlined := Cursor.outlasts_withinLimits.lineAt t.trail.furthestStart back hbacklimits
      rwa [hlook] at hlined
    have hline := hbacksound.holds_lineAt hholds hlook
    have hcountable := hbacksound.countable_lineAt hdlimits hholds hlook
    rw [hlook] at hinvoke
    dsimp only at hinvoke
    cases hreport : Report.ofTrail t.trail line with
    | error cause =>
      -- A column too large to count would be one past the columns of the line.
      obtain ⟨-, hlarge⟩ := eq_limitExceeded_of_ofTrail hreport
      have hcolumn := hline.column_le
      have hcolumns := hcountable.columns
      omega
    | ok report =>
      rw [hreport] at hinvoke
      have hshown := (Report.place_of_ofTrail hreport).2.1
      have hdiag : p.Diagnoses g fuel c { trail := t.trail, report, committed } := by
        refine .inl ⟨config, d.release, ?_⟩
        change Reading.parse config (p.run g fuel) c = _
        rw [parse_eq, hinvoke]
        rfl
      rw [hinvoke]
      refine .failed _ d rfl (hshown ▸ hline) (hshown ▸ hcountable) fun hlength =>
        ⟨fun hlimit => ?_, ?_⟩
      · refine Report.exists_render (fun e he => hdiag.start_le_stop he) hlimit ?_
        rw [hshown] at hlength ⊢
        rw [hline.length]
        omega
      · exact Report.render_of_limit

end

/-- Where a source that has nothing begins, limits are kept if its offset is below the limit. -/
theorem Cursor.withinLimits_ofSource_nil {origin : Nat} (h : origin < offsetLimit) :
    (Cursor.ofSource [] origin).WithinLimits :=
  ⟨h, (by decide : 0 + 0 + 2 < offsetLimit)⟩

/-- A parse at the next to last of all offsets, in a source that has nothing there, is shown. -/
theorem failure_is_reported_next_to_last :
    ∃ c f t diag d shown, Cursor.Made c ∧ c.WithinLimits ∧ c.position = offsetLimit - 2 ∧
      outcome ((Parser.literal "a").run ruleless 2) (Session.start c.openScope {}) =
        .ok (.error f, t) ∧
      f.expectation?.isSome ∧
      Reading.invoke {} ((Parser.literal "a").run ruleless 2) c =
        .ok (.error (.failed diag), d) ∧
      diag.report.line.span.stop + 1 < offsetLimit ∧ diag.report.render = .ok shown := by
  have hmade : (Cursor.ofSource [] (offsetLimit - 2)).Made := .ofSource [] _
  have hlimits : (Cursor.ofSource [] (offsetLimit - 2)).WithinLimits :=
    Cursor.withinLimits_ofSource_nil (by decide)
  have hfails : passes (fun (r, _) => match r with
      | .error f => f.expectation?.isSome
      | .ok _ => false) (outcome ((Parser.literal "a").run ruleless 2)
        (Session.start (Cursor.ofSource [] (offsetLimit - 2)).openScope {})) = true := by
    decide +kernel
  have hreported : (diagnosis? (Reading.invoke {} ((Parser.literal "a").run ruleless 2)
      (Cursor.ofSource [] (offsetLimit - 2)))).map (·.report.line) =
        some ⟨1, ⟨offsetLimit - 2, offsetLimit - 2⟩, ""⟩ := by
    decide +kernel
  obtain ⟨⟨r, t⟩, hrun, hr⟩ := exists_of_passes hfails
  cases r with
  | ok v => cases hr
  | error f =>
    obtain ⟨-, hends⟩ :=
      failure_is_reported ruleless 2 (.literal "a") {} _ hmade hlimits f t hrun hr
    obtain ⟨diag, hdiag, hline⟩ := Option.map_eq_some_iff.mp hreported
    obtain ⟨d, hinvoke⟩ := exists_of_diagnosis?_eq_some hdiag
    rw [hinvoke] at hends
    -- The invocation told of a report, so the source has not failed.
    cases hends with
    | failed _ _ _ _ _ hshown =>
      rw [hline] at hshown
      have hlimit : diag.report.line.span.stop + 1 < offsetLimit := by
        rw [hline]
        decide
      obtain ⟨shown, hrender⟩ := (hshown (Nat.zero_le _)).shown hlimit
      exact ⟨_, f, t, diag, d, shown, hmade, hlimits, rfl, hrun, hr, hinvoke, hlimit, hrender⟩

/-- A parse at the last offset fails, and its report cannot be shown: there is no offset for the
column where the failure is to be drawn. -/
theorem report_past_last_offset :
    (Cursor.ofSource [] (offsetLimit - 1)).Made ∧
      (Cursor.ofSource [] (offsetLimit - 1)).WithinLimits ∧
      ∃ diag d, ((Parser.literal "a").parse ruleless 2 {}).run
          (Cursor.ofSource [] (offsetLimit - 1)) = .ok (.error (.failed diag), d) ∧
        diag.report.render = .error .limitExceeded := by
  have hchecked : (diagnosis? (((Parser.literal "a").parse ruleless 2 {}).run
      (Cursor.ofSource [] (offsetLimit - 1)))).map (·.report.render) =
        some (.error .limitExceeded) := by
    decide +kernel
  obtain ⟨diag, hdiag, hrender⟩ := Option.map_eq_some_iff.mp hchecked
  obtain ⟨d, hparse⟩ := exists_of_diagnosis?_eq_some hdiag
  exact ⟨.ofSource [] _, Cursor.withinLimits_ofSource_nil (by decide), diag, d, hparse, hrender⟩

end ParseTrail
