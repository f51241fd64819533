import ParseTrail.Proofs.Positions
import ParseTrail.Proofs.Trail.Crowned

/-!
# Labelled parsers

Whatever a parser does underneath, as long as nothing in it dissolves the attempts around it, the
parser with a label leaves one attempt of that label: it is in progress until everything below it
has been recorded, and its shape lets it stay. So a report on it ends with this attempt, and if the
parse got nowhere, it is what the report says was expected.

- `crowned_of_outcome`: the trail of a labelled parser that failed;
- `labelled_parser_owns_report`: the report on it.
-/

namespace ParseTrail

namespace Session

variable {t : Session} {c : Cursor} {config : Config} {label : String} {shape : Shape}

/-- The attempt that a session opened first has failed, and its shape lets it stay. -/
theorem crowned_left (hstays : shape.dissolve = false) (houter : shape.dissolveOuter = false)
    (ht : ((Session.start c config).entered label shape.anchor).Labelled t) (stop : Nat) :
    (t.left 1 stop true shape).trail.Crowned label 1 ∧
      (t.left 1 stop true shape).trail.startOf 0 = c.position := by
  have horderly := orderly_start c config
  have hentered := Trail.Opens.push horderly.ready.linked horderly.ready.current_lt c.position label
    shape.anchor
  have hopens := hentered.mono ht.resumes.orderly.ready.linked ht.resumes.keeps
  -- It is still in progress, and the first attempt that was opened below the root.
  have hcurrent : t.current = 1 := ht.resumes.current
  have hchildren : t.trail.children 0 = [1] := Trail.children_zero_eq hopens.linked
    ht.resumes.orderly.ordered (hcurrent ▸ ht.resumes.orderly.edge) hopens.parent?
  have hlabel : t.trail.labelOf? 1 = some label :=
    (ht.labelOf? 1 hentered.lt_size).trans
      ((labelled_entered horderly (Trail.unmarked_start _) label shape.anchor).2 1)
  have hroot : t.trail.startOf 0 = c.position :=
    Trail.startOf_congr (hopens.keeps.extent? 0 Nat.one_pos)
  have hchild : t.trail.startOf 1 = c.position :=
    (Trail.startOf_congr (ht.resumes.keeps.extent? 1 hentered.lt_size)).trans
      (startOf_entered (Session.start c config) label shape.anchor)
  have hcrowned := Trail.crowned_close hopens.linked hchildren hlabel (hchild.trans hroot.symm) stop
  have hstart := (congrFun (Trail.startOf_close t.trail 1 stop true) 0).trans hroot
  -- Whether it loses its children or not, it stays below the root as it was closed.
  obtain ⟨u, hu, -, -, htrail⟩ := left_of_unmarked houter ht.unmarked 1 stop true
  rw [hstays, if_neg Bool.false_ne_true] at htrail
  rw [htrail]
  rcases hu with rfl | rfl
  · exact ⟨hcrowned, hstart⟩
  · have hsame := Trail.sameStarts_clearChildren (t.trail.close 1 stop true) 1
    exact ⟨hcrowned.clearChildren, (congrFun hsame.startOf 0).trans hstart⟩

end Session

/-! ### Reports on labelled parsers -/

section

variable {α : Type} {g : Grammar Empty α} {p : Parser Empty α} {label : String} {fuel : Nat}
  {c : Cursor} {config : Config} {f : Failure} {t : Session}

/-- The trail of a labelled parser that failed. -/
theorem crowned_of_outcome (h : g.Contained p)
    (hout : outcome ((p.withLabel label).run g fuel) (Session.start c config) = .ok (.error f, t))
    (hf : f.expectation?.isSome) :
    t.trail.Crowned label 1 ∧ t.trail.startOf 0 = c.position := by
  have horderly := Session.orderly_start c config
  have hunmarked := Trail.unmarked_start c.position
  -- Of the labelled parser only the label and the shape matter.
  generalize hq : p.withLabel label = q at hout
  have hcontained : g.Contained q := hq ▸ h.withLabel label
  have hlabel : q.label = label := by
    rw [← hq]
    cases p
    rfl
  have hstays : q.shape.dissolve = false := by
    rw [← hq]
    cases p
    rfl
  cases fuel with
  | zero => cases hout
  | succ fuel =>
    have hready : labelling.ready 0 ((Session.start c config).entered q.label q.shape.anchor) :=
      ⟨Session.orderly_entered horderly _ _, (Session.labelled_entered horderly hunmarked _ _).1⟩
    cases recorded_of_outcome hout with
    | tooDeep _ => cases hf
    | @failed f t d ht hreturn =>
      have ht := labelled_perform hcontained fuel 0 _ _ _ hready ht fun _ _ => id
      exact hlabel ▸ Session.crowned_left hstays (hcontained q .self)
        (ht.trans (.withCursor ht.resumes.orderly ht.unmarked d)) _

end

/-- The attempt below the root of a failed parse is the only one there. It failed, it has a label
and a start, and it is the last that is shown. -/
structure Diagnosis.Tops (diag : Diagnosis) (label : String) (start x : Nat) (a : Attempt) :
    Prop where
  children : diag.trail.children 0 = [x]
  attempt : diag.trail.get? x = some a
  failed : a.failed = true
  label : a.label = label
  start : a.span.start = start
  shown : diag.report.entries.getLast? = some (Report.entryOf a)

/-- A parser with a label owns the report on it. Let nothing in it dissolve the attempts around it,
and let it fail wherever it is started. Below the root of the trail there is a single attempt, which
failed: that of the label, from where the parser was started. It is shown last. If no attempt was
made further on, the label is what was expected. In any case the label of a failed attempt was
expected, so that the label for what is unknown is told only if there is one that has it. -/
theorem labelled_parser_owns_report {α : Type} (g : Grammar Empty α) (p : Parser Empty α)
    (hp : g.Contained p) (label : String) (fuel : Nat) (c : Cursor) (diag : Diagnosis)
    (hdiag : (p.withLabel label).Diagnoses g fuel c diag) :
    (∃ x a, diag.Tops label c.position x a) ∧
    (diag.report.furthest = c.position → diag.report.expected = label) ∧
    ∃ y a, y ∈ diag.trail.preOrder.tail ∧ diag.trail.get? y = some a ∧ a.failed = true ∧
      diag.report.expected = a.label := by
  obtain ⟨config, f, t, -, line, -, hout, hf, htrail, -, -, hreport⟩ := hdiag.exists_outcome
  obtain ⟨hcrowned, hroot⟩ := crowned_of_outcome hp hout hf
  have hroot : t.trail.startOf 0 = c.position := hroot
  rw [← htrail] at hcrowned hroot hreport
  -- What is reported is read off a trail with one attempt below its root.
  obtain ⟨hentries, hexpected⟩ := Report.eq_of_ofTrail hreport
  refine ⟨?_, fun hfurthest => ?_, ?_⟩
  · obtain ⟨a, ha, hfailed, hlabel, hstart⟩ := hcrowned.exists_attempt
    refine ⟨1, a, hcrowned.children, ha, hfailed, hlabel, hstart.trans hroot, ?_⟩
    rw [hentries]
    exact hcrowned.getLast?_entriesOf ha
  · rw [(Report.place_of_ofTrail hreport).1, ← hroot] at hfurthest
    rw [hexpected, Report.headline?_eq hcrowned hfurthest, Option.getD_some]
  · -- The attempt below the root is a culprit, so the report names one.
    obtain ⟨y, a, hy, ha, hnamed⟩ :=
      (Report.ofTrail_names_culprit hcrowned.linked hcrowned.size hreport).2.1 ⟨1, hcrowned.culprit⟩
    have hfailed := hy.failed
    rw [ha] at hfailed
    exact ⟨y, a, hy.withinReach, ha, hfailed, hnamed⟩

/-- Two letters with a label, before another one. Both the attempt at the first letter and that of
the label fail there, and the label is told. -/
theorem labelled_parser_owns_report_otherLetter :
    ruleless.Contained twoLetters ∧
    ∃ diag, (twoLetters.withLabel "pair").Diagnoses ruleless 3 (Cursor.ofText "c") diag ∧
      (∃ x a, diag.Tops "pair" 0 x a) ∧ diag.report.furthest = 0 ∧
      diag.report.expected = "pair" := by
  have hcontained : ruleless.Contained twoLetters := fun q hq =>
    (plain_of_runs_ruleless fromCatalog_twoLetters hq).shape.dissolveOuter
  have hchecked : (diagnosis? (((twoLetters.withLabel "pair").parse ruleless 3 {}).run
      (Cursor.ofText "c"))).map (·.report.furthest) = some 0 := by
    decide +kernel
  obtain ⟨diag, hdiagnosis, hfurthest⟩ := Option.map_eq_some_iff.mp hchecked
  obtain ⟨d, hparse⟩ := exists_of_diagnosis?_eq_some hdiagnosis
  have hdiag : (twoLetters.withLabel "pair").Diagnoses ruleless 3 (Cursor.ofText "c") diag :=
    .inl ⟨{}, d, hparse⟩
  obtain ⟨htops, hexpected, -⟩ :=
    labelled_parser_owns_report ruleless twoLetters hcontained "pair" 3 _ diag hdiag
  exact ⟨hcontained, diag, hdiag, htops, hfurthest, hexpected hfurthest⟩

end ParseTrail
