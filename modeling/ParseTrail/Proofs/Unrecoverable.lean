import ParseTrail.Proofs.Blame
import ParseTrail.Proofs.Cursor.Undisturbed
import ParseTrail.Proofs.Session.Log
import ParseTrail.Proofs.Streaming

/-!
# Failures for good

A failure that is committed, a parse that nests too deep and an error of the source cannot be
absorbed. Once a run of a parser has failed in one of these ways, however deeply it is nested, all
that happens is that the runs around it fail with it. So an invocation that tells of none of this
saw no error of the source.

- `surfaces_parse`, `surfaces_parseAhead`: what an invocation gives after a failure for good;
- `Invocation.undisturbed_of_run`: what an invocation read that tells of no error of the source;
- `unrecoverable_failures_surface`: the runs that end after a failure for good, and the invocation.
-/

namespace ParseTrail

/-! ### Reading without disturbance -/

/-- The source is not disturbed, unless the action fails with an error of it. -/
def undisturbed : Course where
  ready _ _ := True
  leads s t := s.cursor.Undisturbed t.cursor
  excuses f := ∃ e, f = .source e

variable {β : Type} {c d : Cursor}

theorem kept_undisturbed : undisturbed.Kept where
  refl _ := .of_source_eq rfl
  trans := .trans
  ready_of_leads _ _ := trivial
  narrow := id
  excuses_commit := by
    rintro _ ⟨e, rfl⟩
    exact ⟨e, rfl⟩
  not_excuses := by
    rintro _ hf ⟨e, rfl⟩
    cases hf
  -- What a request tells is an error of the source, which is excused, or the source was not
  -- disturbed.
  read n := Course.follows_ofSource fun s d told _ hd hr => by
    rcases told with e | chars
    · exact absurd ⟨e, rfl⟩ (hr e rfl)
    · exact Cursor.undisturbed_read hd
  readChar := Course.follows_ofSource fun s d told _ hd hr => by
    rcases told with e | char?
    · exact absurd ⟨e, rfl⟩ (hr e rfl)
    · exact Cursor.undisturbed_readChar hd
  peek n := Course.follows_ofSource fun s d told _ hd hr => by
    rcases told with e | chars
    · exact absurd ⟨e, rfl⟩ (hr e rfl)
    · exact Cursor.undisturbed_peek hd
  atEnd := Course.follows_ofSource fun s d told _ hd hr => by
    rcases told with e | finished
    · exact absurd ⟨e, rfl⟩ (hr e rfl)
    · exact Cursor.undisturbed_atEnd (Except.ok.inj hd)
  returnTo := by
    intro b s r t _ ht _
    rw [outcome_returnTo] at ht
    split at ht
    · cases ht
    · next hd =>
      cases ht
      exact .of_source_eq (Cursor.source_returnTo hd)
  reject label := by
    intro s r t _ ht _
    rw [outcome_reject] at ht
    cases ht
    exact .of_source_eq rfl

theorem undisturbed_recorded (label : String) (shape : Shape) {x : Action β}
    (hx : ∀ b, undisturbed.Follows b x) (b : Nat) :
    undisturbed.Follows b (Action.recorded label shape x) := by
  intro s r u _ hu hr
  cases recorded_of_outcome hu with
  | tooDeep _ => exact .of_source_eq rfl
  | @matched v t ht =>
    refine hx b (s.entered label shape.anchor) _ t trivial ht fun _ hf => ?_
    cases hf
  | failed ht hreturn =>
    -- The failure is passed on, once the cursor is back.
    have hst := hx b (s.entered label shape.anchor) _ _ trivial ht hr
    exact hst.trans (.of_source_eq (Cursor.source_returnTo hreturn))

/-- Making an error that is none of the source. It may read on to the end of a line. -/
theorem undisturbed_errorOf {trail : Trail} {f : Failure} {err : ParseError}
    (h : Reading.errorOf trail f c = .ok (err, d)) (herr : ∀ e, err ≠ .source e) :
    ¬undisturbed.excuses f ∧ c.Undisturbed d := by
  have hdiagnose (committed : Bool)
      (h : Reading.diagnose trail committed c = .ok (err, d)) : c.Undisturbed d := by
    rw [diagnose_eq] at h
    split at h
    · cases h
      exact absurd rfl (herr _)
    · next hline =>
      split at h
      · cases h
      · cases h
        exact Cursor.undisturbed_lineAt hline
  cases f with
  | expected _ => exact ⟨by rintro ⟨_, ⟨⟩⟩, hdiagnose false h⟩
  | committed _ => exact ⟨by rintro ⟨_, ⟨⟩⟩, hdiagnose true h⟩
  | tooDeep depth limit =>
    cases h
    exact ⟨by rintro ⟨_, ⟨⟩⟩, .of_source_eq rfl⟩
  | source e =>
    cases h
    exact absurd rfl (herr e)

/-- An invocation that tells of no error of the source, up to its own release. -/
theorem undisturbed_invoke {α : Type} (g : Grammar Empty α) (fuel : Nat) (p : Parser Empty α)
    {config : Config} {r : Except ParseError (Value α)}
    (h : Reading.invoke config (p.run g fuel) c = .ok (r, d))
    (hr : ∀ e, r ≠ .error (.source e)) : c.Undisturbed d := by
  have hrun (r : Except Failure (Value α)) (t : Session)
      (hout : outcome (p.run g fuel) (Session.start c.openScope config) = .ok (r, t))
      (hr : ∀ f, r = .error f → ¬undisturbed.excuses f) : c.Undisturbed t.cursor :=
    kept_undisturbed.run g undisturbed_recorded fuel p 0 _ r t trivial hout hr
  cases invoked_of_invoke h with
  | @matched v t hout =>
    have hst := hrun _ t hout fun _ hf => by cases hf
    exact hst.trans (.of_source_eq rfl)
  | @failed f t back _ err hout hreturn herror =>
    obtain ⟨hf, hend⟩ := undisturbed_errorOf herror fun e he => hr e (by rw [he])
    have hst := hrun _ t hout fun f' hf' => Except.error.inj hf' ▸ hf
    have hback : back.source = t.cursor.source := (Cursor.source_returnTo hreturn).trans rfl
    exact (hst.trans (.of_source_eq hback)).trans hend

namespace Invocation

/-- An invocation that tells of no error of the source was not disturbed by it. -/
theorem undisturbed_of_run (i : Invocation) {r : Except ParseError i.Answer}
    (h : i.run c = .ok (r, d)) (hr : ∀ e, r ≠ .error (.source e)) : c.Undisturbed d := by
  have hahead {α : Type} (g : Grammar Empty α) (fuel : Nat) (p : Parser Empty α)
      {r : Except ParseError (Value α)} {d : Cursor} (h : (p.parseAhead g fuel).run c = .ok (r, d))
      (hr : ∀ e, r ≠ .error (.source e)) : c.Undisturbed d := by
    obtain ⟨e, hinvoke, hreturn⟩ := exists_invoke_of_parseAhead h
    exact (undisturbed_invoke g fuel p hinvoke hr).trans
      (.of_source_eq (Cursor.source_returnTo hreturn))
  cases i with
  | parse g fuel config p =>
    obtain ⟨e, hinvoke, rfl⟩ := exists_invoke_of_parse h
    exact (undisturbed_invoke g fuel p hinvoke hr).trans (.of_source_eq (Cursor.source_release e))
  | parseAhead g fuel p => exact hahead g fuel p h hr
  | matchesAt g fuel p =>
    have h : (p.matchesAt g fuel).run c = .ok (r, d) := h
    rw [matchesAt_run] at h
    -- It tells of an error of the source just if looking ahead does.
    rcases hlook : (p.parseAhead g fuel).run c with halt | ⟨(diag | ⟨depth, limit⟩ | e) | v, d'⟩
    · rw [hlook] at h
      cases h
    · rw [hlook] at h
      cases h
      exact hahead g fuel p hlook fun _ he => by cases he
    · rw [hlook] at h
      cases h
      exact hahead g fuel p hlook fun _ he => by cases he
    · rw [hlook] at h
      cases h
      exact absurd rfl (hr e)
    · rw [hlook] at h
      cases h
      exact hahead g fuel p hlook fun _ he => by cases he

end Invocation

/-! ### Failing for good -/

/-- What an invocation at the cursor `c` gives whose parser failed for good: an error that says so.
Only a committed failure needs a diagnosis, and that may fail in turn, for an error of the source
before the end of the line that it shows, or for a column that is too large a number. -/
inductive Failure.Surfaces (c : Cursor) (trail : Trail) :
    Failure → Except Halt (Except ParseError β × Cursor) → Prop
  | committed {e : Expectation} {line : Line} {report : Report} {d : Cursor} :
    Report.ofTrail trail line = .ok report →
    Surfaces c trail (.committed e) (.ok (.error (.failed { trail, report, committed := true }), d))
  | line {e : Expectation} {err : SourceError} {back d d' : Cursor} :
    c.Extends back → back.index = c.index → back.lineAt trail.furthestStart = (.error err, d) →
    Surfaces c trail (.committed e) (.ok (.error (.source err), d'))
  | column {e : Expectation} {line : Line} : Report.ofTrail trail line = .error .limitExceeded →
    Surfaces c trail (.committed e) (.error (.fault .limitExceeded))
  | tooDeep {depth limit : Nat} {d : Cursor} :
    Surfaces c trail (.tooDeep depth limit) (.ok (.error (.tooDeep depth limit), d))
  | source {err : SourceError} {d : Cursor} :
    Surfaces c trail (.source err) (.ok (.error (.source err), d))

theorem surfaces_errorOf {f : Failure} (hf : f.isRecoverable = false) (trail : Trail)
    {back : Cursor} (hback : c.Extends back) (hindex : back.index = c.index) :
    f.Surfaces (β := β) c trail
      (match Reading.errorOf trail f back with
        | .error h => .error h
        | .ok (err, e) => .ok (.error err, e)) := by
  cases f with
  | expected e => cases hf
  | committed e =>
    have herror : Reading.errorOf trail (.committed e) back = Reading.diagnose trail true back := rfl
    rw [herror, diagnose_eq]
    rcases hline : back.lineAt trail.furthestStart with ⟨err | line, d⟩
    · exact .line hback hindex hline
    · dsimp only
      cases hreport : Report.ofTrail trail line with
      | error cause =>
        have hcause := (eq_limitExceeded_of_ofTrail hreport).1
        subst hcause
        exact .column hreport
      | ok report => exact .committed hreport
  | tooDeep depth limit => exact .tooDeep
  | source err => exact .source

/-- It does not matter where the cursor stands in the end. -/
theorem Failure.Surfaces.withCursor {f : Failure} {trail : Trail} {r : Except ParseError β}
    (h : f.Surfaces c trail (.ok (r, d))) (e : Cursor) : f.Surfaces c trail (.ok (r, e)) := by
  cases h with
  | committed hreport => exact .committed hreport
  | line hback hindex hline => exact .line hback hindex hline
  | tooDeep => exact .tooDeep
  | source => exact .source

section

variable {α : Type} (g : Grammar Empty α) (fuel : Nat) (p : Parser Empty α) {config : Config}
  {f : Failure} {t : Session}

theorem level_start (hc : c.InBounds) (config : Config) :
    level.ready 0 (Session.start c.openScope config) :=
  ⟨hc, Nat.succ_pos _⟩

theorem surfaces_invoke (hc : c.InBounds)
    (hout : outcome (p.run g fuel) (Session.start c.openScope config) = .ok (.error f, t))
    (hf : f.isRecoverable = false) :
    f.Surfaces c t.trail (Reading.invoke config (p.run g fuel) c) := by
  have hext : c.openScope.Extends t.cursor :=
    ((tells_logged g fuel p).follows 0 _ _ t (level_start hc config) hout fun _ _ => id).2
  have hclosed : c.Extends t.cursor.closeScope := hext.closeScope
  -- The cursor goes back to where the invocation began, and the error is made from there.
  rw [invoke_eq, hout]
  simp only [hclosed.returnTo hc]
  refine surfaces_errorOf hf t.trail (hclosed.withIndex ?_) rfl
  exact Nat.le_trans hc hclosed.buffered_le

theorem surfaces_parse (hc : c.InBounds)
    (hout : outcome (p.run g fuel) (Session.start c.openScope config) = .ok (.error f, t))
    (hf : f.isRecoverable = false) : f.Surfaces c t.trail ((p.parse g fuel config).run c) := by
  have hinvoke := surfaces_invoke g fuel p hc hout hf
  have hparse : (p.parse g fuel config).run c = _ := parse_eq config (p.run g fuel) c
  rw [hparse]
  generalize Reading.invoke config (p.run g fuel) c = o at hinvoke
  rcases o with halt | ⟨r, d⟩
  · exact hinvoke
  · exact hinvoke.withCursor _

theorem surfaces_parseAhead (hc : c.InBounds)
    (hout : outcome (p.run g fuel) (Session.start c.openScope {}) = .ok (.error f, t))
    (hf : f.isRecoverable = false) : f.Surfaces c t.trail ((p.parseAhead g fuel).run c) := by
  have hinvoke := surfaces_invoke g fuel p hc hout hf
  have hahead : (p.parseAhead g fuel).run c = _ := parseAhead_eq (p.run g fuel) c
  rw [hahead]
  have hraises : ∀ key, (g.procedures key).RaisesNoReturn := fun key => key.elim
  have hext := agree_invoke {} (alike_run hraises fuel p) hc
  generalize Reading.invoke {} (p.run g fuel) c = o at hinvoke hext
  rcases o with halt | ⟨r, d⟩
  · exact hinvoke
  · -- The cursor goes back once more, which it can.
    rcases hext with _ | ⟨-, -, hd⟩
    simp only [hd.returnTo hc]
    exact hinvoke.withCursor _

end

/-- Failures for good surface. Keeping a log of all runs of parsers changes nothing. If one of them,
however deeply nested, failed for good, then after it end just those around it, innermost first,
each with the same failure and no further attempt on the trail. The whole run fails with it, and so
does the invocation. And an invocation of any kind that tells of no error of the source has seen
none, nor bytes that encode no character. -/
theorem unrecoverable_failures_surface {α : Type} (g : Grammar Empty α) (fuel : Nat)
    (p : Parser Empty α) (config : Config) (c : Cursor) (hc : c.InBounds) :
    (p.logged g fuel (Session.start c.openScope config)).1 =
        outcome (p.run g fuel) (Session.start c.openScope config) ∧
      (∀ earlier e later f, (p.logged g fuel (Session.start c.openScope config)).2 =
          earlier ++ e :: later → e.failure? = some f → f.isRecoverable = false →
        later = e.enclosing 0 e.depth ∧
          ∃ t, outcome (p.run g fuel) (Session.start c.openScope config) = .ok (.error f, t) ∧
            t.trail.size = e.attempts ∧
            f.Surfaces c t.trail ((p.parse g fuel config).run c) ∧
            (config = {} → f.Surfaces c t.trail ((p.parseAhead g fuel).run c))) ∧
      ∀ (i : Invocation) (r : Except ParseError i.Answer) (d : Cursor),
        i.run c = .ok (r, d) → (∀ e, r ≠ .error (.source e)) → c.Undisturbed d := by
  have htells := tells_logged g fuel p
  have hready := level_start hc config
  refine ⟨htells.outcome_eq _ hready, fun earlier e later f hlog he hf => ?_,
    fun i r d hd hr => i.undisturbed_of_run hd hr⟩
  -- The log of a run is settled: after a failure for good there are only the ends of the runs
  -- around it.
  have hsettled := htells.settled _ hready
  rw [hlog] at hsettled
  obtain ⟨n, t, hdepth, hlater, hout, hsize⟩ := hsettled.of_split he hf
  have hn : n = e.depth := by
    rw [hdepth]
    exact (Nat.zero_add n).symm
  refine ⟨hn ▸ hlater, t, hout, hsize, surfaces_parse g fuel p hc hout hf, ?_⟩
  rintro rfl
  exact surfaces_parseAhead g fuel p hc hout hf

/-- A committed letter, as often as it goes and possibly not at all. -/
def insistent : Parser Empty Unit :=
  .many (.optional (.cut (.literal "a")))

/-- The letter is missing from the text `b`. -/
def missing : Expectation :=
  ⟨0, "\"a\"", some "b"⟩

/-- The commitment surfaces through what would absorb any other failure. -/
theorem unrecoverable_failures_surface_insistent :
    (Cursor.ofText "b").InBounds ∧
    (insistent.logged ruleless 6 (Session.start (Cursor.ofText "b").openScope {})).2 =
        [⟨3, some (.expected missing), 5⟩] ++ ⟨2, some (.committed missing), 5⟩ ::
          RunEnd.enclosing ⟨2, some (.committed missing), 5⟩ 0 2 ∧
      (Failure.committed missing).isRecoverable = false ∧
      ∃ t : Session, (Failure.committed missing).Surfaces (Cursor.ofText "b") t.trail
        ((insistent.parse ruleless 6 {}).run (Cursor.ofText "b")) := by
  have hc := Cursor.inBounds_ofText "b"
  have hlog : (insistent.logged ruleless 6 (Session.start (Cursor.ofText "b").openScope {})).2 =
      [⟨3, some (.expected missing), 5⟩] ++ ⟨2, some (.committed missing), 5⟩ ::
        RunEnd.enclosing ⟨2, some (.committed missing), 5⟩ 0 2 := by
    decide +kernel
  obtain ⟨-, t, -, -, hparse, -⟩ := (unrecoverable_failures_surface ruleless 6 insistent {}
    (Cursor.ofText "b") hc).2.1 _ _ _ _ hlog rfl rfl
  exact ⟨hc, hlog, rfl, t, hparse⟩

end ParseTrail
