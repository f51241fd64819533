import ParseTrail.Parser.Run
import ParseTrail.Proofs.Cursor.Extension
import ParseTrail.Proofs.Session.Likeness
import ParseTrail.Proofs.Session.Outcome

/-!
# Steady sessions

Whoever may go back to a place relies on everything done since to have kept it. `steady` compares a
session with itself and asks just this: from a base on, the cursor extends the cursor of the base,
and no computation halts because it could not go back. Parsing respects it:

- `respects_steady`: so do the primitive actions;
- `alike_perform`: so do procedures, whatever they do with the cursor;
- `agree_invoke`, `agree_parse`, `agree_parseAhead`: and invocations, from any cursor on.

Two ways of running parsers that are alike in this sense give the same outcomes.
-/

namespace ParseTrail

/-- The halt of a parse that cannot go back to where it began. -/
def Halt.IsReturn (h : Halt) : Prop :=
  ∃ offset first last, h = .fault (.returnOutside offset first last)

/-- A cursor in a scope. From there on nothing is lost until the scope closes. -/
structure BacktrackPoint where
  /-- The cursor. -/
  cursor : Cursor
  inBounds : cursor.InBounds
  inScope : 0 < cursor.scopes

namespace BacktrackPoint

/-- The backtrack point at a cursor that is about to open a scope. -/
def opened {c : Cursor} (hc : c.InBounds) : BacktrackPoint :=
  ⟨c.openScope, hc, Nat.succ_pos _⟩

/-- The backtrack point at a cursor that extends another. -/
def after {b : BacktrackPoint} {d : Cursor} (h : b.cursor.Extends d) : BacktrackPoint :=
  ⟨d, h.inBounds, h.scopes ▸ b.inScope⟩

end BacktrackPoint

/-- A session compared with itself: since the backtrack point its cursor has only grown. -/
def steady : Likeness BacktrackPoint Session Session Failure Failure where
  states b s t := s = t ∧ b.cursor.Extends s.cursor
  failures := Eq
  halts h := ¬h.IsReturn

variable {β κ α : Type} {b : BacktrackPoint} {x y : Action β} {c d : Cursor}

/-- The outcomes of computations with a cursor agree if they are the same, keep what the cursor
`c` keeps and do not halt for want of it. -/
abbrev AgreeSince (c : Cursor) (o p : Except Halt (β × Cursor)) : Prop :=
  Agree (¬·.IsReturn) Eq (fun d e => d = e ∧ c.Extends d) o p

/-! ### Primitive actions -/

/-- An action that leaves the cursor alone. -/
theorem alike_of_cursor_eq {k : Session → Session} {r : Session → Except Failure β}
    (hx : ∀ s, outcome x s = .ok (r s, k s)) (hk : ∀ s, (k s).cursor = s.cursor) :
    steady.Alike b Eq x x := by
  rintro s _ ⟨rfl, hs⟩
  rw [hx]
  refine .done ?_ ⟨rfl, (hk s).symm ▸ hs⟩
  rcases r s with f | v
  · exact .error rfl
  · exact .ok rfl

theorem alike_ofReading {x y : Reading β}
    (h : ∀ d, b.cursor.Extends d → AgreeSince b.cursor (x d) (y d)) :
    steady.Alike b Eq (Action.ofReading x) (Action.ofReading y) := by
  rintro s _ ⟨rfl, hs⟩
  have hagree := h s.cursor hs
  rw [outcome_ofReading, outcome_ofReading]
  change Agree _ _ _ (x.run s.cursor) (y.run s.cursor) at hagree
  generalize x.run s.cursor = o, y.run s.cursor = p at hagree ⊢
  rcases hagree with hh | ⟨rfl, rfl, hext⟩
  · exact .halt hh
  · exact .done (.ok rfl) ⟨rfl, hext⟩

/-- Every operation on the cursor, in a scope. -/
theorem agree_ask (r : Cursor.Request) (hd : b.cursor.Extends d) :
    AgreeSince b.cursor (Reading.ask r d) (Reading.ask r d) := by
  have hrun : Reading.ask r d = Halt.check (d.perform r) := rfl
  rw [hrun]
  cases h : d.perform r with
  | error cause =>
    refine .halt ?_
    rintro ⟨offset, first, last, hreturn⟩
    cases hreturn
    -- No operation of the cursor faults for a place to return to.
    rcases Cursor.perform_eq_error h with h | h | ⟨_, _, _, h⟩ <;> cases h
  | ok told =>
    obtain ⟨reply, e⟩ := told
    have hscoped : 0 < d.scopes := hd.scopes ▸ b.inScope
    exact .done rfl ⟨rfl, hd.trans (.perform hd.inBounds hscoped r h)⟩

theorem alike_ask (r : Cursor.Request) : steady.Alike b Eq (Action.ask r) (Action.ask r) :=
  alike_ofReading fun _ hd => agree_ask r hd

theorem alike_ofSource (r : Except SourceError β) :
    steady.Alike b Eq (Action.ofSource r) (Action.ofSource r) := by
  rcases r with e | v
  · exact Likeness.Alike.throw rfl
  · exact Likeness.Alike.pure rfl

/-- Parsing respects steadiness. -/
theorem respects_steady : steady.Respects (·.cursor.position) where
  failures := rfl
  narrow := by
    rintro b s _ ⟨rfl, hs⟩
    -- The new base is the cursor as it is now, which extends that of the old one.
    refine ⟨.after hs, ⟨rfl, .refl hs.inBounds⟩, ?_, rfl, rfl⟩
    rintro s' _ ⟨rfl, hs'⟩
    exact ⟨rfl, hs.trans hs'⟩
  read n := (alike_ask _).bindEq fun r => alike_ofSource r
  readChar := (alike_ask _).bindEq fun r => alike_ofSource r
  peek n := (alike_ask _).bindEq fun r => alike_ofSource r
  atEnd := (alike_ask _).bindEq fun r => alike_ofSource r
  returnTo := by
    rintro b s _ ⟨rfl, hs⟩
    -- The place to return to is that of the base, whose text is kept.
    rw [outcome_returnTo, hs.returnTo b.inBounds]
    exact .done (.ok rfl) ⟨rfl, hs.withIndex (Nat.le_trans b.inBounds hs.buffered_le)⟩
  reject label := alike_of_cursor_eq (fun s => outcome_reject s _ label) fun _ => rfl
  enter label shape := by
    rintro s _ ⟨rfl, hs⟩
    rw [outcome_enter]
    by_cases h : s.maxDepth ≠ 0 ∧ s.depth ≥ s.maxDepth
    · rw [if_pos h]
      exact .done (.error rfl) ⟨rfl, hs⟩
    · rw [if_neg h]
      exact .done (.ok rfl) ⟨rfl, hs⟩
  leave id stop failed shape :=
    alike_of_cursor_eq (fun s => outcome_leave s id stop failed shape) fun _ => rfl
  outOfFuel := by rintro ⟨_, _, _, h⟩; cases h
  limitExceeded := by rintro ⟨_, _, _, h⟩; cases h
  rulePending := by rintro ⟨_, _, _, h⟩; cases h
  ruleDropped := by rintro ⟨_, _, _, h⟩; cases h

theorem alike_speculate (accept : β → Bool) (hxy : ∀ b, steady.Alike b Eq x y) :
    steady.Alike b Eq (Action.speculate accept x) (Action.speculate accept y) := by
  rintro s _ ⟨rfl, hs⟩
  -- The scope that it opens makes a base of its own, so that the body may go back in turn.
  have hagree := hxy (.opened hs.inBounds) { s with cursor := s.cursor.openScope } _
    ⟨rfl, .refl hs.inBounds⟩
  rw [outcome_speculate, outcome_speculate]
  generalize outcome x { s with cursor := s.cursor.openScope } = o,
    outcome y { s with cursor := s.cursor.openScope } = p at hagree ⊢
  rcases hagree with hh | ⟨hr, rfl, hext⟩
  · exact .halt hh
  · next r r' t =>
    have heq : r = r' := by
      rcases hr with hv | hf
      · exact congrArg Except.ok hv
      · exact congrArg Except.error hf
    subst heq
    have hclosed : s.cursor.Extends t.cursor.closeScope := hext.closeScope
    by_cases haccept : accepts accept r
    · simp only [if_pos haccept]
      exact .done (.ok rfl) ⟨rfl, hs.trans hclosed⟩
    · -- The text since the scope was opened is still there, and so is the place to return to.
      simp only [if_neg haccept, hclosed.returnTo hs.inBounds]
      refine .done (.ok rfl) ⟨rfl, hs.trans (hclosed.withIndex ?_)⟩
      exact Nat.le_trans hs.inBounds hclosed.buffered_le

/-! ### Invocations -/

/-- Making the error of a parse keeps the place of the cursor. -/
theorem agree_errorOf (trail : Trail) (f : Failure) (hd : c.Extends d) :
    Agree (¬·.IsReturn) Eq (fun e e' => e = e' ∧ c.Extends e ∧ e.index = d.index)
      (Reading.errorOf trail f d) (Reading.errorOf trail f d) := by
  have hdiagnose (committed : Bool) :
      Agree (¬·.IsReturn) Eq (fun e e' => e = e' ∧ c.Extends e ∧ e.index = d.index)
        (Reading.diagnose trail committed d) (Reading.diagnose trail committed d) := by
    -- Finding the line of the failure may read on, which keeps text and place.
    have hline := hd.trans (.lineAt trail.furthestStart hd.inBounds)
    have hindex := Cursor.lineAt_index trail.furthestStart d
    rw [diagnose_eq]
    generalize d.lineAt trail.furthestStart = told at hline hindex ⊢
    rcases told with ⟨e | line, e⟩
    · exact .done rfl ⟨rfl, hline, hindex⟩
    · simp only
      cases hreport : Report.ofTrail trail line with
      | error cause =>
        -- A report fails for a limit and not for a place to return to.
        refine .halt ?_
        rintro ⟨_, _, _, h⟩
        rw [(eq_limitExceeded_of_ofTrail hreport).1] at h
        cases h
      | ok report => exact .done rfl ⟨rfl, hline, hindex⟩
  cases f with
  | expected _ => exact hdiagnose false
  | committed _ => exact hdiagnose true
  | tooDeep depth limit => exact .done rfl ⟨rfl, hd, rfl⟩
  | source e => exact .done rfl ⟨rfl, hd, rfl⟩

/-- An invocation keeps what the cursor keeps. -/
theorem agree_invoke (config : Config) (hxy : ∀ b, steady.Alike b Eq x y) (hc : c.InBounds) :
    AgreeSince c (Reading.invoke config x c) (Reading.invoke config y c) := by
  -- The invocation is a computation from the base that its scope makes.
  have hagree := hxy (.opened hc) (Session.start c.openScope config) _ ⟨rfl, .refl hc⟩
  rw [invoke_eq, invoke_eq]
  generalize outcome x (Session.start c.openScope config) = o,
    outcome y (Session.start c.openScope config) = p at hagree ⊢
  rcases hagree with hh | ⟨rfl | rfl, rfl, hext⟩
  · exact .halt hh
  · exact .done rfl ⟨rfl, hext.closeScope⟩
  · next t f =>
    -- The cursor goes back after its scope has closed, before anything is released.
    have hclosed : c.Extends t.cursor.closeScope := hext.closeScope
    simp only [hclosed.returnTo hc]
    have hback := hclosed.withIndex (Nat.le_trans hc hclosed.buffered_le)
    have herror := agree_errorOf t.trail f hback
    generalize Reading.errorOf t.trail f { t.cursor.closeScope with index := c.index } = told
      at herror ⊢
    rcases herror with hh | ⟨-, -, hall, -⟩
    · exact .halt hh
    · exact .done rfl ⟨rfl, hall⟩

/-- An invocation that does not match leaves the cursor where it was. -/
theorem invoke_index {config : Config} {err : ParseError} (hx : ∀ b, steady.Alike b Eq x x)
    (hc : c.InBounds) (h : Reading.invoke config x c = .ok (.error err, d)) :
    d.index = c.index := by
  have hagree := hx (.opened hc) (Session.start c.openScope config) _ ⟨rfl, .refl hc⟩
  rw [invoke_eq] at h
  generalize outcome x (Session.start c.openScope config) = o at hagree h
  rcases o with hh | ⟨f | v, t⟩
  · cases h
  · rcases hagree with _ | ⟨_, -, hext⟩
    have hclosed : c.Extends t.cursor.closeScope := hext.closeScope
    have hback := hclosed.withIndex (Nat.le_trans hc hclosed.buffered_le)
    have herror := agree_errorOf t.trail f hback
    simp only [hclosed.returnTo hc] at h
    generalize Reading.errorOf t.trail f { t.cursor.closeScope with index := c.index } = told
      at herror h
    rcases herror with _ | ⟨-, -, -, hindex⟩
    · cases h
    · cases h
      exact hindex
  · cases h

/-- In a scope, a parse keeps what the cursor keeps, since its release is put off. -/
theorem agree_parse (config : Config) (hxy : ∀ b, steady.Alike b Eq x y)
    (hd : b.cursor.Extends d) :
    AgreeSince b.cursor (Reading.parse config x d) (Reading.parse config y d) := by
  have hagree := agree_invoke config hxy hd.inBounds
  rw [parse_eq, parse_eq]
  generalize Reading.invoke config x d = o, Reading.invoke config y d = p at hagree ⊢
  rcases hagree with hh | ⟨rfl, rfl, hext⟩
  · exact .halt hh
  · have hall := hd.trans hext
    -- The scope of the base is still open, so nothing is released.
    have hscoped : 0 < _ := hall.scopes ▸ b.inScope
    simp only [Cursor.release_eq_self hscoped]
    exact .done rfl ⟨rfl, hall⟩

theorem agree_parseAhead (hxy : ∀ b, steady.Alike b Eq x y) (hc : c.InBounds) :
    Agree (¬·.IsReturn) Eq (fun d e => d = e ∧ c.Extends d ∧ d.index = c.index)
      (Reading.parseAhead x c) (Reading.parseAhead y c) := by
  have hagree := agree_invoke {} hxy hc
  rw [parseAhead_eq, parseAhead_eq]
  generalize Reading.invoke {} x c = o, Reading.invoke {} y c = p at hagree ⊢
  rcases hagree with hh | ⟨rfl, rfl, hext⟩
  · exact .halt hh
  · simp only [hext.returnTo hc]
    exact .done rfl ⟨rfl, hext.withIndex (Nat.le_trans hc hext.buffered_le), rfl⟩

/-! ### Procedures -/

/-- Whether all faults that a procedure raises on its own satisfy a condition. -/
def Procedure.Faults (allowed : Fault → Prop) : Procedure κ α → Prop
  | .done _ | .fail _ => True
  | .fault cause => allowed cause
  | .depth next => ∀ n, (next n).Faults allowed
  | .trail next => ∀ t, (next t).Faults allowed
  | .cursor _ next => ∀ reply, (next reply).Faults allowed
  | .attempt _ next => ∀ r, (next r).Faults allowed
  | .reject _ _ next => ∀ f, (next f).Faults allowed
  | .speculate _ body next => body.Faults allowed ∧ ∀ r, (next r).Faults allowed
  | .parse _ _ next => ∀ r, (next r).Faults allowed
  | .lookahead _ next => ∀ r, (next r).Faults allowed
  | .parseText _ _ next => ∀ r, (next r).Faults allowed
  | .apart _ body next => body.Faults allowed ∧ ∀ r t, (next r t).Faults allowed

/-- The condition on procedures: the fault of a parse that cannot go back is not theirs to raise. -/
def Procedure.RaisesNoReturn (procedure : Procedure κ α) : Prop :=
  procedure.Faults fun cause => ¬(Halt.fault cause).IsReturn

variable {g : Grammar κ α} {run₁ run₂ : Parser κ α → Action (Value α)}

theorem agree_parseText (text : String) (p : Parser κ α)
    (hrun : ∀ p b, steady.Alike b Eq (run₁ p) (run₂ p)) :
    steady.Alike b Eq
      (liftM ((Reading.parse {} (run₁ p)).run' (Cursor.ofText text)) : Action _)
      (liftM ((Reading.parse {} (run₂ p)).run' (Cursor.ofText text)) : Action _) := by
  have hagree := agree_invoke {} (hrun p) (Cursor.inBounds_ofText text)
  rintro s _ ⟨rfl, hs⟩
  rw [outcome_liftM, outcome_liftM]
  have hrun' (x : Action (Value α)) : (Reading.parse {} x).run' (Cursor.ofText text) =
      (Reading.invoke {} x (Cursor.ofText text)).map (·.1) := by
    change Prod.fst <$> Reading.parse {} x (Cursor.ofText text) = _
    rw [parse_eq]
    rcases Reading.invoke {} x (Cursor.ofText text) with h | ⟨r, d⟩ <;> rfl
  rw [hrun', hrun']
  generalize Reading.invoke {} (run₁ p) (Cursor.ofText text) = o,
    Reading.invoke {} (run₂ p) (Cursor.ofText text) = p at hagree ⊢
  rcases hagree with hh | ⟨rfl, -⟩
  · exact .halt hh
  · exact .done (.ok rfl) ⟨rfl, hs⟩

/-- Procedures that run parsers in ways that are alike are alike, whatever else they do. -/
theorem alike_perform (procedure : Procedure κ α) (hraises : procedure.RaisesNoReturn)
    (hrun : ∀ p b, steady.Alike b Eq (run₁ p) (run₂ p)) (b : BacktrackPoint) :
    steady.Alike b Eq (procedure.perform g run₁) (procedure.perform g run₂) := by
  -- By induction on the steps of the procedure. Each step is steady from the base on.
  induction procedure generalizing b with
  | done v => exact Likeness.Alike.pure rfl
  | fail f => exact Likeness.Alike.throw rfl
  | fault cause => exact Likeness.Alike.halt hraises
  | depth next ih =>
    rintro s _ ⟨rfl, hs⟩
    exact ih s.depth (hraises s.depth) b s _ ⟨rfl, hs⟩
  | trail next ih =>
    rintro s _ ⟨rfl, hs⟩
    exact ih s.trail (hraises s.trail) b s _ ⟨rfl, hs⟩
  | cursor request next ih =>
    exact (alike_ask request).bindEq fun reply => ih reply (hraises reply) b
  | attempt p next ih =>
    exact (respects_steady.attempt (hrun p b)).bindEq fun r => ih r (hraises r) b
  | reject offset label next ih =>
    have hreject := alike_of_cursor_eq (b := b) (fun s => outcome_reject s offset label)
      fun _ => rfl
    exact hreject.bindEq fun f => ih f (hraises f) b
  | speculate accept body next ihbody ih =>
    exact (alike_speculate accept (ihbody hraises.1)).bindEq fun r => ih r (hraises.2 r) b
  | parse p config next ih =>
    -- A parse inside a procedure is an invocation of its own inside a scope.
    have hparse := alike_ofReading (b := b) fun d hd => agree_parse config (hrun p) hd
    exact hparse.bindEq fun r => ih r (hraises r) b
  | lookahead p next ih =>
    have hahead := alike_ofReading (b := b) fun d hd =>
      (agree_parseAhead (hrun p) hd.inBounds).mono (fun _ _ h => h)
        fun _ _ h => ⟨h.1, hd.trans h.2.1⟩
    exact hahead.bindEq fun r => ih r (hraises r) b
  | parseText text rule next ih =>
    simp only [Procedure.perform]
    cases g.rules rule with
    | defined p => exact (agree_parseText text p hrun).bindEq fun r => ih r (hraises r) b
    | pending => exact Likeness.Alike.halt respects_steady.rulePending
    | dropped => exact Likeness.Alike.halt respects_steady.ruleDropped
  | apart config body next ihbody ih =>
    -- A session of its own opens no scope: its base is the cursor as it is now.
    have hsession := alike_ofReading (b := b)
      (x := Reading.session config (body.perform g run₁))
      (y := Reading.session config (body.perform g run₂)) fun d hd => by
        have hagree := ihbody hraises.1 (.after hd) (Session.start d config) _
          ⟨rfl, .refl hd.inBounds⟩
        rw [session_eq, session_eq]
        generalize outcome (body.perform g run₁) (Session.start d config) = o,
          outcome (body.perform g run₂) (Session.start d config) = p at hagree ⊢
        rcases hagree with hh | ⟨rfl | rfl, rfl, hext⟩
        · exact .halt hh
        · exact .done rfl ⟨rfl, hd.trans hext⟩
        · exact .done rfl ⟨rfl, hd.trans hext⟩
    exact hsession.bindEq fun told => ih told.1 told.2 (hraises.2 told.1 told.2) b

end ParseTrail
