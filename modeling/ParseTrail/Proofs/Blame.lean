import ParseTrail.Parser.Catalog
import ParseTrail.Parser.Run
import ParseTrail.Proofs.Engine.Simulation
import ParseTrail.Proofs.Session.Account

/-!
# Whom a failed parse names

A failed parse always records a failed attempt within reach. Its report, though, is about the
attempts that started furthest, and those may all have matched: those that a lookahead made and gave
back, or those whose match was rejected afterwards. Then no failed attempt is shown, and nothing is
named.

- `failed_parse_names_culprit`: a report shows a failed attempt and names one just if some attempt
  that started furthest failed or was made for one that did. This is so whenever parsers neither
  look ahead nor reject matches out in the open;
- `rejected_parse_names_nobody`: a parse whose report names nobody.
-/

namespace ParseTrail

section

variable {κ α : Type}

/-! ### Plain grammars -/

/-- The parsers that a parser can come to run, itself included. -/
inductive Grammar.Runs (g : Grammar κ α) (p : Parser κ α) : Parser κ α → Prop
  | self : Grammar.Runs g p p
  | part {q r : Parser κ α} : Grammar.Runs g p q → r ∈ q.matcher.parts → Grammar.Runs g p r
  | rule {q r : Parser κ α} {key : Nat} : Grammar.Runs g p q → q.matcher = .rule key →
    g.rules key = .defined r → Grammar.Runs g p r

/-- The author of the grammar left it to the catalog which attempts of the parser are dissolved. -/
structure Parser.Plain (p : Parser κ α) : Prop where
  shape : p.shape.Plain
  dissolves : p.shape.dissolve → p.matcher.dissolves

/-- A parser put together from the catalog. Its author may give labels, but what else the shape of
an attempt says is for the catalog to decide: only digits, numbers and blanks drop the attempts made
for them. -/
inductive Parser.FromCatalog : Parser κ α → Prop
  | matcher {m : Matcher κ α} : (∀ q ∈ m.parts, q.FromCatalog) → m.toParser.FromCatalog
  | labelled {p : Parser κ α} (label : String) : p.FromCatalog → (p.withLabel label).FromCatalog
  | leaf {p : Parser κ α} (label : String) :
    p.FromCatalog → (p.withLabel label).asLeaf.FromCatalog
  | self (key : Nat) : (Parser.self key).FromCatalog
  | recursive (key : Nat) {body : Parser κ α} :
    body.FromCatalog → (Parser.recursive key body).FromCatalog

namespace Parser.FromCatalog

variable {p q : Parser κ α} {g : Grammar κ α}

theorem literal (s : String) : (Parser.literal s : Parser κ α).FromCatalog :=
  .matcher fun _ hq => absurd hq List.not_mem_nil

theorem plain (h : p.FromCatalog) : p.Plain := by
  induction h with
  | matcher _ _ => exact ⟨⟨rfl, fun _ => rfl⟩, id⟩
  | @labelled p label _ ih =>
    cases p
    exact ⟨⟨ih.shape.dissolveOuter, fun hdissolve => nomatch hdissolve⟩,
      fun hdissolve => nomatch hdissolve⟩
  | @leaf p label _ ih =>
    cases p
    exact ⟨⟨ih.shape.dissolveOuter, fun hdissolve => nomatch hdissolve⟩,
      fun hdissolve => nomatch hdissolve⟩
  | self key => exact ⟨⟨rfl, fun _ => rfl⟩, id⟩
  | recursive key _ _ => exact ⟨⟨rfl, fun _ => rfl⟩, id⟩

theorem part (h : p.FromCatalog) (hq : q ∈ p.matcher.parts) : q.FromCatalog := by
  induction h with
  | matcher hparts _ => exact hparts q hq
  | @labelled p label _ ih =>
    cases p
    exact ih hq
  | @leaf p label _ ih =>
    cases p
    exact ih hq
  | self key => cases hq
  | recursive key _ _ => cases hq

/-- In a grammar from the catalog all that a parser can come to run is from there. -/
theorem of_runs (h : p.FromCatalog) (hg : ∀ key r, g.rules key = .defined r → r.FromCatalog)
    (hq : g.Runs p q) : q.FromCatalog := by
  -- By induction on how the parser comes to be run. A rule may be any parser of the grammar.
  induction hq with
  | self => exact h
  | part _ hr ih => exact ih.part hr
  | rule _ _ hr _ => exact hg _ _ hr

end Parser.FromCatalog

/-- The parser does not look ahead, and rejects matches only under a label of its own. -/
structure Parser.Forthright (p : Parser κ α) : Prop where
  consumes : ∀ q, p.matcher ≠ .lookahead q
  rejects : ∀ f q, p.matcher = .tryMap f q → p.shape.dissolve = false

end

open ParseTrail.Action (Accounts)

section

variable {α : Type} {g : Grammar Empty α} {p : Parser Empty α} {strict : Prop}

/-! ### What parsers leave on the trail -/

/-- A matcher that is replaced by its parts accounts for a mismatch through them, unless it is
itself the one to reject. -/
theorem accounts_perform {run : Parser Empty α → Action (Value α)} (m : Matcher Empty α)
    (hparts : ∀ q ∈ m.parts, Accounts strict True (run q))
    (hrules : ∀ key q, m = .rule key → g.rules key = .defined q → Accounts strict True (run q))
    (hlook : strict → ∀ q, m ≠ .lookahead q) (fuel : Nat) :
    Accounts strict (m.dissolves ∧ (strict → ∀ f q, m ≠ .tryMap f q)) (m.perform g run fuel) := by
  -- A matcher whose attempts stay needs no account of its own.
  have hstays {β : Type} {x : Action β} (hx : Accounts strict False x) (P : Prop) :
      Accounts strict (false = true ∧ P) x := hx.mono fun h => nomatch h.1
  have hall {β : Type} {owes : Prop} {x : Action β} (hx : Accounts strict True x) :
      Accounts strict owes x := hx.mono fun _ => trivial
  cases m with
  | literal text => exact (hstays (accounts_literal text) _).bind fun _ => .pure _
  | satisfy label condition => exact (hstays (accounts_satisfy label condition) _).map _
  | ending => exact (hstays (accounts_ending _) _).bind fun _ => .pure _
  | succeed v => exact .pure v
  | refuse label => exact hstays (.here fun _ => .throw _) _
  | many p =>
    have hp := hparts p (by simp [Matcher.parts])
    exact hall ((accounts_many hp fuel []).map _)
  | many1 p =>
    have hp := hparts p (by simp [Matcher.parts])
    exact hall (hp.bind fun first => (accounts_many hp fuel [first]).map _)
  | times n p =>
    have hp := hparts p (by simp [Matcher.parts])
    exact hall ((accounts_times hp n).map _)
  | optional p =>
    have hp := hparts p (by simp [Matcher.parts])
    refine hall (hp.recover.bind fun found => ?_)
    cases found with
    | none => exact .pure _
    | some v => exact .pure _
  | sepBy p separator =>
    have hp := hparts p (by simp [Matcher.parts])
    have hseparator := hparts separator (by simp [Matcher.parts])
    exact hall ((accounts_sepBy hp hseparator fuel).map _)
  | sepBy1 p separator =>
    have hp := hparts p (by simp [Matcher.parts])
    have hseparator := hparts separator (by simp [Matcher.parts])
    exact hall (hp.bind fun first => (accounts_sepTail hp hseparator fuel [first]).map _)
  | choice arms =>
    refine hstays (accounts_firstOf _ fun x hx => ?_) _
    obtain ⟨arm, harm, rfl⟩ := List.mem_map.mp hx
    exact hparts arm harm
  | cut p => exact hall (hparts p (by simp [Matcher.parts])).cut
  | between opening closing p =>
    have hopening := hparts opening (by simp [Matcher.parts])
    have hclosing := hparts closing (by simp [Matcher.parts])
    have hp := hparts p (by simp [Matcher.parts])
    exact hall (hopening.bind fun _ => hp.bind fun _ => hclosing.bind fun _ => .pure _)
  | lookahead p =>
    have hp := hparts p (by simp [Matcher.parts])
    exact hstays (accounts_lookahead (fun hstrict => hlook hstrict p rfl) hp) _
  | butNot p excluded =>
    have hp := hparts p (by simp [Matcher.parts])
    exact hstays (accounts_butNot _ hp (hparts excluded (by simp [Matcher.parts]))) _
  | andThen p q =>
    have hp := hparts p (by simp [Matcher.parts])
    exact hall (hp.bind fun _ => hparts q (by simp [Matcher.parts]))
  | before p q =>
    have hp := hparts p (by simp [Matcher.parts])
    have hq := hparts q (by simp [Matcher.parts])
    exact hall (hp.bind fun _ => hq.bind fun _ => .pure _)
  | both p q =>
    have hp := hparts p (by simp [Matcher.parts])
    have hq := hparts q (by simp [Matcher.parts])
    exact hall (hp.bind fun _ => hq.bind fun _ => .pure _)
  | map f p => exact hall ((hparts p (by simp [Matcher.parts])).map f)
  | tryMap f p =>
    have hp := hparts p (by simp [Matcher.parts])
    exact (accounts_tryMap f hp).mono fun h hstrict => h.2 hstrict f p rfl
  | rule key =>
    simp only [Matcher.perform]
    cases hrule : g.rules key with
    | defined q => exact hall (hrules key q rfl hrule)
    | pending => exact .halt _
    | dropped => exact .halt _
  | procedure key => exact key.elim

/-- The trail accounts for every run of a parser of a plain grammar. -/
theorem accounts_run (hplain : ∀ q, g.Runs p q → q.Plain)
    (hstrict : strict → ∀ q, g.Runs p q → q.Forthright) (fuel : Nat) {q : Parser Empty α}
    (hq : g.Runs p q) : Accounts strict True (q.run g fuel) := by
  -- By induction on fuel, for all parsers that can come to be run.
  induction fuel generalizing q with
  | zero => exact .halt _
  | succ fuel ih =>
    have hperform : Accounts strict _ (q.matcher.perform g (Parser.run g fuel) fuel) :=
      accounts_perform q.matcher (fun r hr => ih (hq.part hr))
        (fun key r hkey hr => ih (hq.rule hkey hr)) (fun h => (hstrict h q hq).consumes) fuel
    refine accounts_recorded q.label hperform (hplain q hq).shape fun hdissolve => ?_
    refine ⟨(hplain q hq).dissolves hdissolve, fun h f r htry => ?_⟩
    -- A forthright parser that rejects matches has a label, and its attempt stays.
    have hshown := (hstrict h q hq).rejects f r htry
    rw [hshown] at hdissolve
    cases hdissolve

/-! ### Failed parses -/

/-- A parse at the cursor, or a look ahead there, fails with a diagnosis. -/
def Parser.Diagnoses (g : Grammar Empty α) (fuel : Nat) (p : Parser Empty α) (c : Cursor)
    (diag : Diagnosis) : Prop :=
  (∃ config d, (p.parse g fuel config).run c = .ok (.error (.failed diag), d)) ∨
    ∃ d, (p.parseAhead g fuel).run c = .ok (.error (.failed diag), d)

variable {fuel : Nat} {c d : Cursor} {diag : Diagnosis}

/-- Both are invocations. -/
theorem Parser.Diagnoses.exists_invoke (h : p.Diagnoses g fuel c diag) :
    ∃ config d, Reading.invoke config (p.run g fuel) c = .ok (.error (.failed diag), d) := by
  rcases h with ⟨config, d, h⟩ | ⟨d, h⟩
  · obtain ⟨e, hinvoke, -⟩ := exists_invoke_of_parse h
    exact ⟨config, e, hinvoke⟩
  · obtain ⟨e, hinvoke, -⟩ := exists_invoke_of_parseAhead h
    exact ⟨{}, e, hinvoke⟩

/-- A diagnosis is made of a mismatch, a trail and the line found at the cursor. -/
theorem exists_ofTrail_of_errorOf {trail : Trail} {f : Failure} {e : Cursor}
    (h : Reading.errorOf trail f d = .ok (.failed diag, e)) :
    f.expectation?.isSome ∧ diag.trail = trail ∧
      ∃ line d', d.lineAt trail.furthestStart = (.ok line, d') ∧
        Report.ofTrail trail line = .ok diag.report := by
  have hdiagnose (committed : Bool)
      (h : Reading.diagnose trail committed d = .ok (.failed diag, e)) :
      diag.trail = trail ∧ ∃ line d', d.lineAt trail.furthestStart = (.ok line, d') ∧
        Report.ofTrail trail line = .ok diag.report := by
    rw [diagnose_eq] at h
    rcases hline : d.lineAt trail.furthestStart with ⟨err | line, d'⟩
    · rw [hline] at h
      cases h
    · rw [hline] at h
      dsimp only at h
      cases hreport : Report.ofTrail trail line with
      | error cause =>
        rw [hreport] at h
        cases h
      | ok report =>
        rw [hreport] at h
        cases h
        exact ⟨rfl, line, e, rfl, hreport⟩
  -- Only mismatches are diagnosed, the other failures are errors as they are.
  cases f with
  | expected _ => exact ⟨rfl, hdiagnose false h⟩
  | committed _ => exact ⟨rfl, hdiagnose true h⟩
  | tooDeep depth limit => cases h
  | source err => cases h

/-- The session that a diagnosis is about ended with a mismatch. The line that is shown was found
once the cursor had gone back. -/
theorem exists_outcome_of_invoke {config : Config} {x : Action (Value α)}
    (h : Reading.invoke config x c = .ok (.error (.failed diag), d)) :
    ∃ f t back line e,
      outcome x (Session.start c.openScope config) = .ok (.error f, t) ∧
        f.expectation?.isSome ∧ diag.trail = t.trail ∧
        t.cursor.closeScope.returnTo c.position = .ok back ∧
        back.lineAt t.trail.furthestStart = (.ok line, e) ∧
        Report.ofTrail t.trail line = .ok diag.report := by
  obtain _ | @⟨f, t, back, _, _, hout, hreturn, herror⟩ := invoked_of_invoke h
  -- The trail of the diagnosis is that of the session, wherever the cursor has gone back to.
  obtain ⟨hmismatch, htrail, line, e, hline, hreport⟩ := exists_ofTrail_of_errorOf herror
  exact ⟨f, t, back, line, e, hout, hmismatch, htrail, hreturn, hline, hreport⟩

theorem Parser.Diagnoses.exists_outcome (h : p.Diagnoses g fuel c diag) :
    ∃ config f t back line e,
      outcome (p.run g fuel) (Session.start c.openScope config) = .ok (.error f, t) ∧
        f.expectation?.isSome ∧ diag.trail = t.trail ∧
        t.cursor.closeScope.returnTo c.position = .ok back ∧
        back.lineAt t.trail.furthestStart = (.ok line, e) ∧
        Report.ofTrail t.trail line = .ok diag.report := by
  obtain ⟨config, d, hinvoke⟩ := h.exists_invoke
  exact ⟨config, exists_outcome_of_invoke hinvoke⟩

/-- The trail of a failed parse holds, below its root, a forest that is to blame. -/
theorem exists_blames_of_diagnoses (strict : Prop) (hplain : ∀ q, g.Runs p q → q.Plain)
    (hstrict : strict → ∀ q, g.Runs p q → q.Forthright) (hdiag : p.Diagnoses g fuel c diag) :
    diag.trail.Linked ∧ 0 < diag.trail.size ∧ (∃ line, Report.ofTrail diag.trail line =
      .ok diag.report) ∧
      ∃ F, diag.trail.Holds 1 (diag.trail.children 0) F ∧
        F.Blames strict (diag.trail.startOf 0) := by
  obtain ⟨config, f, t, -, line, -, hout, hmismatch, htrail, -, -, hreport⟩ := hdiag.exists_outcome
  rw [htrail]
  have hready := Session.ready_start c.openScope config
  obtain ⟨F, hF, hblames⟩ :=
    accounts_run hplain hstrict fuel .self _ _ t hready hout hmismatch
  obtain ⟨ids, hgrows, hholds⟩ := hF.grown.exists_ids
  -- A new trail has a root without children, so all that is below it has grown since.
  have hchildren : t.trail.children 0 = ids := (hgrows.children 0 Nat.one_pos).trans rfl
  have hnote : t.trail.note? 0 = some ⟨c.openScope.position, false, false⟩ :=
    (hgrows.note? 0 Nat.one_pos).trans rfl
  rw [hchildren, Trail.startOf_of_note? hnote]
  -- The cursor may have gone on before the mismatch, but the forest starts where the parse did.
  exact ⟨hF.grown.linked, Nat.lt_of_lt_of_le Nat.one_pos hgrows.size_le, ⟨line, hreport⟩, F, hholds,
    (hblames trivial).back hF.starts⟩

/-- The report of a failed parse shows a failed attempt, and names one as what was expected, just if
there is a culprit. A failed attempt is within reach in any case, and it is a culprit if no parser
looks ahead or rejects matches out in the open. -/
theorem failed_parse_names_culprit {α : Type} (g : Grammar Empty α) (p : Parser Empty α)
    (hplain : ∀ q, g.Runs p q → q.Plain) (fuel : Nat) (c : Cursor) (diag : Diagnosis)
    (hdiag : p.Diagnoses g fuel c diag) :
    (∃ x ∈ diag.trail.preOrder.tail, (diag.trail.get? x).any (·.failed)) ∧
    ((∃ e ∈ diag.report.entries, e.failed = true) ↔ ∃ x, diag.trail.Culprit x) ∧
    ((∃ x, diag.trail.Culprit x) →
      ∃ x a, diag.trail.Culprit x ∧ diag.trail.get? x = some a ∧
        diag.report.expected = a.label) ∧
    ((¬∃ x, diag.trail.Culprit x) → diag.report.expected = unknownLabel) ∧
    ((∀ q, g.Runs p q → q.Forthright) → ∃ x, diag.trail.Culprit x) := by
  -- What the trail accounts for depends on whether the grammar is forthright. The first parts hold
  -- of every plain grammar.
  obtain ⟨hlinked, hsize, ⟨line, hreport⟩, F, hF, hblames⟩ :=
    exists_blames_of_diagnoses (∀ q, g.Runs p q → q.Forthright) hplain id hdiag
  obtain ⟨n, hn, -⟩ := hblames.exists_failure
  have hnames := Report.ofTrail_names_culprit hlinked hsize hreport
  exact ⟨Trail.exists_failed_of_holds hlinked hF hn, hnames.1, hnames.2.1, hnames.2.2,
    Trail.exists_culprit hlinked hsize hF rfl hblames⟩

end

/-- A grammar without rules. -/
def ruleless : Grammar Empty Unit where
  rules _ := .dropped
  procedures := Empty.elim

/-- One character after another. -/
def twoLetters : Parser Empty Unit :=
  .andThen (.literal "a") (.literal "b")

theorem fromCatalog_twoLetters : twoLetters.FromCatalog := by
  refine .matcher fun q hq => ?_
  simp only [Matcher.parts, List.mem_cons, List.not_mem_nil, or_false] at hq
  rcases hq with rfl | rfl
  · exact .literal "a"
  · exact .literal "b"

theorem plain_of_runs_ruleless {p q : Parser Empty Unit} (h : p.FromCatalog)
    (hq : ruleless.Runs p q) : q.Plain := by
  have hrules (key : Nat) (r : Parser Empty Unit) (hr : ruleless.rules key = .defined r) :
      r.FromCatalog := by
    rw [ruleless] at hr
    cases hr
  exact (h.of_runs hrules hq).plain

/-- A sequence that stops at its second part: what was expected there is named. -/
theorem failed_parse_names_culprit_twoLetters :
    (∀ q, ruleless.Runs twoLetters q → q.Plain) ∧
    ∃ diag, twoLetters.Diagnoses ruleless 3 (Cursor.ofText "ac") diag ∧
      diag.report.expected = "\"b\"" ∧
      ∃ x a, diag.trail.Culprit x ∧ diag.trail.get? x = some a ∧
        diag.report.expected = a.label := by
  have hplain (q : Parser Empty Unit) (hq : ruleless.Runs twoLetters q) : q.Plain :=
    plain_of_runs_ruleless fromCatalog_twoLetters hq
  refine ⟨hplain, _, .inl ⟨{}, _, rfl⟩, by decide +kernel, ?_⟩
  have hnames := failed_parse_names_culprit ruleless twoLetters hplain 3 (Cursor.ofText "ac") _
    (.inl ⟨{}, _, rfl⟩)
  exact hnames.2.2.1 (hnames.2.1.mp (by decide +kernel))

/-- The same, but what matches is rejected. -/
def rejecting : Parser Empty Unit :=
  twoLetters.tryMap fun _ => .error "rejected"

/-- A parse whose report shows no failed attempt and names nobody: the attempt that was rejected
started before the last of those that matched. -/
theorem rejected_parse_names_nobody :
    (∀ q, ruleless.Runs rejecting q → q.Plain) ∧
    ∃ diag, rejecting.Diagnoses ruleless 4 (Cursor.ofText "ab") diag ∧
      (∀ e ∈ diag.report.entries, e.failed = false) ∧ diag.report.expected = unknownLabel ∧
      ∀ a ∈ diag.trail.attempts, a.label ≠ unknownLabel := by
  refine ⟨fun q hq => plain_of_runs_ruleless (.matcher fun r hr => ?_) hq, _, .inl ⟨{}, _, rfl⟩,
    by decide +kernel, by decide +kernel, by decide +kernel⟩
  -- What is mapped is the sequence, which is from the catalog.
  rw [List.mem_singleton.mp hr]
  exact fromCatalog_twoLetters

end ParseTrail
