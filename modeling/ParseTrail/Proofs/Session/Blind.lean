import ParseTrail.Proofs.Session.Closed
import ParseTrail.Proofs.Session.Outcome

/-!
# Blindness to depth and trail

Besides its cursor a session knows how deep attempts are nested and which were made. Where there is
no limit of depth, parsers keep account of that but do not look at it; only procedures can.

- `Action.Blind`: actions that come to the same at a cursor, whatever else the sessions are;
- `Procedure.Discreet`: procedures that ask neither for the depth nor for the trail;
- `blind_run`: parsers are blind in a grammar whose procedures are discreet.
-/

namespace ParseTrail

variable {κ α β γ : Type}

/-- Sessions that have the same cursor and no limit. -/
def unlimited : Likeness Unit Session Session Failure Failure where
  states _ s t := s.cursor = t.cursor ∧ s.maxDepth = 0 ∧ t.maxDepth = 0
  failures := Eq
  halts _ := True

/-- An action comes to the same at a cursor, whatever the depth and the trail are. -/
def Action.Blind (x : Action β) : Prop :=
  unlimited.Alike () Eq x x

namespace Action

/-- All but opening an attempt is blind. -/
theorem closed_blind : Closed fun {β} (x : Action β) => x.Blind where
  pure _ := Likeness.Alike.pure rfl
  throw _ := Likeness.Alike.throw rfl
  halt _ := Likeness.Alike.halt trivial
  position _ _ hst := .done (.ok (congrArg Cursor.position hst.1)) hst
  ofReading x := by
    rintro s t ⟨hcursor, hs, ht⟩
    rw [outcome_ofReading, outcome_ofReading, hcursor]
    rcases x.run t.cursor with h | ⟨v, d⟩
    · exact .halt trivial
    · exact .done (.ok rfl) ⟨rfl, hs, ht⟩
  reject _ _ _ _ hst := .done (.ok rfl) hst
  bind hx hf := Likeness.Alike.bindEq hx hf
  attempt {_ x} hx := by
    intro s t hst
    have hagree := hx s t hst
    rw [outcome_attempt, outcome_attempt]
    generalize outcome x s = o, outcome x t = p at hagree ⊢
    rcases hagree with _ | ⟨rfl | rfl, hst'⟩
    · exact .halt trivial
    · exact .done (.ok rfl) hst'
    · exact .done (.ok rfl) hst'

/-- An attempt is opened and closed on the trail, which nothing else depends on. -/
theorem Blind.recorded {x : Action β} (label : String) (shape : Shape) (hx : x.Blind) :
    (recorded label shape x).Blind := by
  rintro s t ⟨hcursor, hs, ht⟩
  have hagree := hx (s.entered label shape.anchor) (t.entered label shape.anchor)
    ⟨hcursor, hs, ht⟩
  rw [outcome_recorded, outcome_recorded, if_neg fun h => h.1 hs, if_neg fun h => h.1 ht]
  generalize outcome x (s.entered label shape.anchor) = o,
    outcome x (t.entered label shape.anchor) = p at hagree ⊢
  rcases hagree with _ | ⟨rfl | rfl, hcursor', hs', ht'⟩
  · exact .halt trivial
  · exact .done (.ok rfl) ⟨hcursor', hs', ht'⟩
  · -- Both cursors go back from the same place to the same place.
    dsimp only
    rw [hcursor, hcursor']
    split
    · exact .halt trivial
    · exact .done (.error rfl) ⟨rfl, hs', ht'⟩

end Action

open ParseTrail.Action

/-! ### Procedures -/

/-- A procedure asks neither for the depth nor for the trail. What it runs apart, in a session of
its own, may do so there. -/
def Procedure.Discreet : Procedure κ α → Prop
  | .done _ | .fail _ | .fault _ => True
  | .depth _ | .trail _ => False
  | .cursor _ next => ∀ reply, (next reply).Discreet
  | .attempt _ next => ∀ r, (next r).Discreet
  | .reject _ _ next => ∀ f, (next f).Discreet
  | .speculate _ body next => body.Discreet ∧ ∀ r, (next r).Discreet
  | .parse _ _ next => ∀ r, (next r).Discreet
  | .lookahead _ next => ∀ r, (next r).Discreet
  | .parseText _ _ next => ∀ r, (next r).Discreet
  | .apart _ _ next => ∀ r t, (next r t).Discreet

/-- All procedures of a grammar are discreet. -/
def Grammar.Discreet (g : Grammar κ α) : Prop :=
  ∀ key, (g.procedures key).Discreet

variable {g : Grammar κ α}

theorem blind_perform {run : Parser κ α → Action (Value α)} (hrun : ∀ p, (run p).Blind)
    (procedure : Procedure κ α) (hdiscreet : procedure.Discreet) :
    (procedure.perform g run).Blind := by
  induction procedure with
  | done v => exact closed_blind.pure v
  | fail f => exact closed_blind.throw f
  | fault cause => exact closed_blind.halt (.fault cause)
  | depth next _ => exact hdiscreet.elim
  | trail next _ => exact hdiscreet.elim
  | cursor request next ih =>
    exact closed_blind.bind (closed_blind.ofReading _) fun reply => ih reply (hdiscreet reply)
  | attempt p next ih =>
    exact closed_blind.bind (closed_blind.attempt (hrun p)) fun r => ih r (hdiscreet r)
  | reject offset label next ih =>
    exact closed_blind.bind (closed_blind.reject offset label) fun f => ih f (hdiscreet f)
  | speculate accept body next ihbody ih =>
    have hbody := closed_blind.speculate accept (ihbody hdiscreet.1)
    exact closed_blind.bind hbody fun r => ih r (hdiscreet.2 r)
  -- What has a session of its own depends on the cursor alone.
  | parse p config next ih =>
    exact closed_blind.bind (closed_blind.ofReading _) fun r => ih r (hdiscreet r)
  | lookahead p next ih =>
    exact closed_blind.bind (closed_blind.ofReading _) fun r => ih r (hdiscreet r)
  | parseText text rule next ih =>
    simp only [Procedure.perform]
    cases g.rules rule with
    | defined p =>
      refine closed_blind.bind (fun s t hst => ?_) fun r => ih r (hdiscreet r)
      rw [outcome_liftM, outcome_liftM]
      split
      · exact .halt trivial
      · exact .done (.ok rfl) hst
    | pending => exact closed_blind.halt (.fault .rulePending)
    | dropped => exact closed_blind.halt (.fault .ruleDropped)
  | apart config body next _ ih =>
    exact closed_blind.bind (closed_blind.ofReading _) fun told =>
      ih told.1 told.2 (hdiscreet told.1 told.2)

/-! ### Parsers -/

/-- Where procedures are discreet, parsers are blind. -/
theorem blind_run (hg : g.Discreet) (fuel : Nat) (p : Parser κ α) : (p.run g fuel).Blind := by
  rw [← run_sessionEngine]
  exact closed_blind.simulation.run_alone (fun label shape _ hx _ => (hx ()).recorded label shape)
    (fun run hrun key _ => blind_perform (fun p => hrun p ()) (g.procedures key) (hg key)) fuel p ()

/-- So are their matchers. -/
theorem blind_matcher (hg : g.Discreet) (fuel : Nat) (m : Matcher κ α) :
    (m.perform g (Parser.run g fuel) fuel).Blind := by
  rw [← perform_sessionEngine]
  exact closed_blind.simulation.perform_alone m (fun q _ _ => blind_run hg fuel q)
    (fun _ q _ _ _ => blind_run hg fuel q)
    (fun key _ _ => blind_perform (blind_run hg fuel) (g.procedures key) (hg key)) fuel ()

end ParseTrail
