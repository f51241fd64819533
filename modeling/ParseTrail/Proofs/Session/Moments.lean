import ParseTrail.Proofs.Session.Chronicle

/-!
# What holds at every moment

A course says which sessions it is about, and how they may lead to each other. If no failure is an
excuse, and recording follows the course and begins in a session that the course is about, then so
are all sessions in a chronicle, from one that the course is about on:

- `Course.Strict.heeds_run`, `Course.Strict.heeds_steps`: for parsers without procedures, and for
  steps that run some of them;
- `Course.CursorFree.heeds_steps`, `Course.CursorFree.heeds_run`: for procedures, and for all
  parsers, if the course does not speak of the cursor.
-/

namespace ParseTrail

/-- A procedure that runs parsers, and at most looks at how deep they nest and at the trail. -/
def Procedure.OnlyRuns {κ α : Type} : Procedure κ α → Prop
  | .done _ | .fail _ => True
  | .depth next => ∀ n, (next n).OnlyRuns
  | .trail next => ∀ t, (next t).OnlyRuns
  | .attempt _ next => ∀ r, (next r).OnlyRuns
  | _ => False

namespace Course

variable {C : Course} {β γ κ α : Type} {b : Nat}

/-- A course that recording follows as well, whatever the failure. -/
structure Strict (C : Course) : Prop where
  kept : C.Kept
  no_excuse : ∀ f, ¬C.excuses f
  recorded {β : Type} (label : String) (shape : Shape) {x : Action β} :
    (∀ b, C.Follows b x) → ∀ b, C.Follows b (Action.recorded label shape x)
  entered {b : Nat} {s : Session} (label : String) (anchor : Bool) :
    C.ready b s → ¬(s.maxDepth ≠ 0 ∧ s.depth ≥ s.maxDepth) →
      ∃ b', C.ready b' (s.entered label anchor)

/-- The course is about every session that a computation passes through, and the computation follows
it. -/
structure Heeds (C : Course) (b : Nat) (x : Chronicle β) : Prop where
  follows : C.Follows b x.action
  moments : ∀ s, C.ready b s → ∀ m ∈ (x s).2, ∃ b', C.ready b' m

/-- The course is about the first session of a computation and about all that come after it. -/
theorem Heeds.ready_of_mem {x : Chronicle β} (hx : C.Heeds b x) {s m : Session} (hs : C.ready b s)
    (hm : m ∈ s :: (x s).2) : ∃ b', C.ready b' m := by
  rcases List.mem_cons.mp hm with rfl | hm
  · exact ⟨b, hs⟩
  · exact hx.moments s hs m hm

namespace Strict

variable (S : C.Strict) {x : Chronicle β}

include S

/-- The course is about the session in which an action ends that follows it. -/
theorem ready_of_follows {y : Action β} {s m : Session} (hy : C.Follows b y) (hs : C.ready b s)
    (hm : m ∈ lastSession (outcome y s)) : C.ready b m := by
  rcases hout : outcome y s with halt | ⟨r, t⟩
  · rw [hout] at hm
    cases hm
  · rw [hout] at hm
    rw [List.mem_singleton.mp hm]
    exact S.kept.ready_of_leads hs (hy s r t hs hout fun f _ => S.no_excuse f)

/-- A single action passes through no session but the one that it ends in. -/
theorem heeds_of {y : Action β} (hy : C.Follows b y) : C.Heeds b (.of y) :=
  ⟨hy, fun _ hs _ hm => ⟨b, S.ready_of_follows hy hs hm⟩⟩

/-- A value passes through none. -/
theorem heeds_pure (v : β) : C.Heeds b (pure v : Chronicle β) :=
  ⟨S.kept.pure v, fun _ _ _ hm => nomatch hm⟩

/-- A sequence passes through what its parts pass through. -/
theorem heeds_bind {f : β → Chronicle γ} (hx : C.Heeds b x) (hf : ∀ v, C.Heeds b (f v)) :
    C.Heeds b (x >>= f) := by
  refine ⟨?_, fun s hs m hm => ?_⟩
  · rw [Chronicle.action_bind]
    exact S.kept.bind hx.follows fun v => (hf v).follows
  · change m ∈ (Chronicle.andThen x f s).2 at hm
    have hmoments := hx.moments s hs
    have hends (r : Except Failure β) (t : Session) (hout : (x s).1 = .ok (r, t)) : C.ready b t :=
      S.kept.ready_of_leads hs (hx.follows s r t hs hout fun f _ => S.no_excuse f)
    rw [Chronicle.andThen] at hm
    generalize x s = told at hm hmoments hends
    rcases told with ⟨halt | ⟨e | v, t⟩, past⟩
    · exact hmoments m hm
    · exact hmoments m hm
    · -- What comes next begins in the session in which the first part ends.
      rcases List.mem_append.mp hm with hm | hm
      · exact hmoments m hm
      · exact (hf v).moments t (hends _ t rfl) m hm

/-- A part of a computation heeds the course, in a session that the course is about. -/
theorem heeds_within {begins : Session → Option Session} {F : Action β → Action γ}
    (hF : C.Follows b (F x.action))
    (hbegins : ∀ s t, C.ready b s → begins s = some t → ∃ b', C.ready b' t ∧ C.Heeds b' x) :
    C.Heeds b (.within begins F x) := by
  refine ⟨hF, fun s hs m hm => ?_⟩
  rcases List.mem_append.mp hm with hm | hm
  · cases hbegin : begins s with
    | none =>
      rw [hbegin] at hm
      cases hm
    | some t =>
      rw [hbegin] at hm
      obtain ⟨b', ht, hx⟩ := hbegins s t hs hbegin
      exact hx.ready_of_mem ht hm
  · exact ⟨b, S.ready_of_follows hF hs hm⟩

/-- The part may begin where the whole does. -/
theorem heeds_within_some {F : Action β → Action γ} (hF : C.Follows b (F x.action))
    (hx : C.Heeds b x) : C.Heeds b (.within some F x) := by
  refine S.heeds_within hF fun s t hs ht => ?_
  cases ht
  exact ⟨b, hs, hx⟩

/-- A recorded action also passes through the session in which its attempt is entered. -/
theorem heeds_recorded (label : String) (shape : Shape) (hx : ∀ b, C.Heeds b x) :
    C.Heeds b (chronicleEngine.recorded label shape x) := by
  refine S.heeds_within (S.recorded label shape (fun b => (hx b).follows) b) fun s t hs ht => ?_
  rw [Session.enter?] at ht
  split at ht
  · cases ht
  · next hdeep =>
    cases ht
    obtain ⟨b', hb'⟩ := S.entered label shape.anchor hs hdeep
    exact ⟨b', hb', hx b'⟩

/-- All ways of putting computations together heed the course. -/
theorem simulation_heeds :
    Engine.Simulation chronicleEngine chronicleEngine (fun b m n => m = b ∧ n = b)
      (fun b _ x _ => C.Heeds b x) where
  pure := S.heeds_pure
  bind := S.heeds_bind
  map f h := S.heeds_bind h fun v => S.heeds_pure (f v)
  here := by
    intro b β f _ hf
    refine ⟨?_, fun s hs m hm => ?_⟩
    · rw [Chronicle.action_bind]
      exact S.kept.here fun b' => (hf b' b' b' ⟨rfl, rfl⟩).follows
    · -- From here on one may go back to where the session stands.
      have hs' := S.kept.narrow hs
      have hrest := hf s.cursor.position _ _ ⟨rfl, rfl⟩
      rcases List.mem_cons.mp hm with rfl | hm
      · exact ⟨b, hs⟩
      · exact hrest.moments s hs' m hm
  returnTo := by
    rintro b _ _ ⟨rfl, rfl⟩
    exact S.heeds_of S.kept.returnTo
  read n := S.heeds_of (S.kept.read n)
  readChar := S.heeds_of S.kept.readChar
  peek n := S.heeds_of (S.kept.peek n)
  atEnd := S.heeds_of S.kept.atEnd
  expected _ _ := S.heeds_of (S.kept.throw _)
  expectedFound _ _ _ := S.heeds_of (S.kept.throw _)
  reject := by
    rintro b _ _ β reason ⟨rfl, rfl⟩
    exact S.heeds_of (S.kept.bind (S.kept.reject reason) fun f => S.kept.throw f)
  outOfFuel := S.heeds_of (.halt _)
  limitExceeded := S.heeds_of (.halt _)
  rulePending := S.heeds_of (.halt _)
  ruleDropped := S.heeds_of (.halt _)
  recover h := S.heeds_within_some (S.kept.recover h.follows) h
  cut h := S.heeds_within_some (S.kept.cut h.follows) h
  lookahead h := S.heeds_within_some (S.kept.lookahead fun b => (h b).follows) (h _)

/-- All parsers heed the course, if procedures do that run such parsers. -/
theorem heeds_run_of (g : Grammar κ α)
    (hprocedures : ∀ run, (∀ p b, C.Heeds b (run p)) →
      ∀ key b, C.Heeds b ((g.procedures key).chronicle g run))
    (fuel : Nat) (p : Parser κ α) (b : Nat) : C.Heeds b (p.chronicle g fuel) :=
  S.simulation_heeds.run_alone (fun label shape _ hx _ => S.heeds_recorded label shape hx)
    hprocedures fuel p b

/-- Parsers without procedures heed it at every moment. -/
theorem heeds_run (g : Grammar Empty α) (fuel : Nat) (p : Parser Empty α) (b : Nat) :
    C.Heeds b (p.chronicle g fuel) :=
  S.heeds_run_of g (fun _ _ key => key.elim) fuel p b

/-- A failure may be taken for a value, as the course excuses none. -/
theorem follows_attempt {x : Action β} (hx : C.Follows b x) :
    C.Follows b (Action.attempt x) := by
  intro s r t hs ht _
  rw [outcome_attempt] at ht
  split at ht
  · cases ht
  · next hout =>
    cases ht
    exact hx s _ _ hs hout fun f _ => S.no_excuse f

/-- Steps that only run parsers heed the course, if the parsers do. -/
theorem heeds_steps {g : Grammar κ α} {run : Parser κ α → Chronicle (Value α)}
    (hrun : ∀ p b, C.Heeds b (run p)) {steps : Procedure κ α} (h : steps.OnlyRuns) (b : Nat) :
    C.Heeds b (steps.chronicle g run) := by
  induction steps with
  | done v => exact S.heeds_pure v
  | fail f => exact S.heeds_of (S.kept.throw f)
  | depth next ih =>
    exact ⟨fun s => (ih s.depth (h s.depth)).follows s, fun s => (ih s.depth (h s.depth)).moments s⟩
  | trail next ih =>
    exact ⟨fun s => (ih s.trail (h s.trail)).follows s, fun s => (ih s.trail (h s.trail)).moments s⟩
  | attempt p next ih =>
    have hattempt := S.heeds_within_some (S.follows_attempt (hrun p b).follows) (hrun p b)
    exact S.heeds_bind hattempt fun r => ih r (h r)
  | _ => exact h.elim

end Strict

/-! ### Courses that do not speak of the cursor -/

/-- A course that the cursor has no part in, so that procedures may do with it what they like. It is
about every session at its start. -/
structure CursorFree (C : Course) : Prop where
  trans {s t u : Session} : C.leads s t → C.leads t u → C.leads s u
  ready_of_leads {b : Nat} {s t : Session} : C.ready b s → C.leads s t → C.ready b t
  anywhere {b b' : Nat} {s : Session} : C.ready b s → C.ready b' s
  no_excuse : ∀ f, ¬C.excuses f
  moved {b : Nat} {s : Session} (d : Cursor) : C.ready b s → C.leads s { s with cursor := d }
  start (b : Nat) (c : Cursor) (config : Config) : C.ready b (Session.start c config)
  reject {b : Nat} (offset : Nat) (label : String) : C.Follows b (Action.reject offset label)
  recorded {β : Type} (label : String) (shape : Shape) {x : Action β} :
    (∀ b, C.Follows b x) → ∀ b, C.Follows b (Action.recorded label shape x)
  entered {b : Nat} {s : Session} (label : String) (anchor : Bool) :
    C.ready b s → C.ready b (s.entered label anchor)

namespace CursorFree

variable (F : C.CursorFree)

include F

/-- A computation with the cursor. -/
theorem follows_ofReading (x : Reading β) : C.Follows b (Action.ofReading x) := by
  intro s r t hs ht _
  rw [outcome_ofReading] at ht
  split at ht
  · cases ht
  · cases ht
    exact F.moved _ hs

/-- What may only halt stays where it is. -/
theorem follows_liftM (x : Except Halt β) : C.Follows b (liftM x : Action β) := by
  intro s r t hs ht _
  rw [outcome_liftM] at ht
  split at ht
  · cases ht
  · cases ht
    exact F.moved s.cursor hs

/-- A part in a scope of its own. -/
theorem follows_speculate (accept : β → Bool) {x : Action β} (hx : C.Follows b x) :
    C.Follows b (Action.speculate accept x) := by
  intro s r u hs hu _
  rw [outcome_speculate] at hu
  have hopened := F.moved s.cursor.openScope hs
  rcases hout : outcome x { s with cursor := s.cursor.openScope } with halt | ⟨r', t⟩
  · rw [hout] at hu
    cases hu
  · rw [hout] at hu
    dsimp only at hu
    have hst := F.trans hopened
      (hx _ r' t (F.ready_of_leads hs hopened) hout fun f _ => F.no_excuse f)
    have ht := F.ready_of_leads hs hst
    -- Only the cursor moves once the part has ended.
    split at hu
    · cases hu
      exact F.trans hst (F.moved _ ht)
    · split at hu
      · cases hu
      · cases hu
        exact F.trans hst (F.moved _ ht)

/-- An operation on the cursor does nothing to a course that the cursor has no part in. -/
theorem follows_ofSource {request : Cursor.Request}
    {reply : request.Reply → Except SourceError β} :
    C.Follows b (Action.ask request >>= fun told => Action.ofSource (reply told)) :=
  Course.follows_ofSource fun _ d _ hs _ _ => F.moved d hs

/-- So it is with all primitive actions. -/
theorem kept : C.Kept where
  refl hs := F.moved _ hs
  trans := F.trans
  ready_of_leads := F.ready_of_leads
  narrow := F.anywhere
  excuses_commit h := absurd h (F.no_excuse _)
  not_excuses _ := F.no_excuse _
  read _ := F.follows_ofSource
  readChar := F.follows_ofSource
  peek _ := F.follows_ofSource
  atEnd := F.follows_ofSource
  returnTo := F.follows_ofReading _
  reject label := F.reject _ label

/-- Recording follows such a course as well. -/
theorem strict : C.Strict where
  kept := F.kept
  no_excuse := F.no_excuse
  recorded := F.recorded
  entered label anchor hs _ := ⟨_, F.entered label anchor hs⟩

variable {g : Grammar κ α} {run : Parser κ α → Chronicle (Value α)}

/-- A parse of its own begins in a session that the course is about. -/
theorem heeds_parse {x : Chronicle β} {begins : Session → Session} {F' : Action β → Action γ}
    (hF' : C.Follows b (F' x.action)) (hbegins : ∀ s, ∃ c config, begins s = Session.start c config)
    (hx : C.Heeds b x) : C.Heeds b (.within (fun s => some (begins s)) F' x) := by
  refine F.strict.heeds_within hF' fun s t _ ht => ?_
  cases ht
  obtain ⟨c, config, hstart⟩ := hbegins s
  exact ⟨b, hstart ▸ F.start b c config, hx⟩

/-- Procedures heed the course, if the parsers do that they run. -/
theorem heeds_steps (hrun : ∀ p b, C.Heeds b (run p)) (procedure : Procedure κ α) (b : Nat) :
    C.Heeds b (procedure.chronicle g run) := by
  induction procedure generalizing b with
  | done v => exact F.strict.heeds_pure v
  | fail f => exact F.strict.heeds_of (F.kept.throw f)
  | fault cause => exact F.strict.heeds_of (.halt _)
  | depth next ih =>
    exact ⟨fun s => (ih s.depth b).follows s, fun s => (ih s.depth b).moments s⟩
  | trail next ih =>
    exact ⟨fun s => (ih s.trail b).follows s, fun s => (ih s.trail b).moments s⟩
  | cursor request next ih =>
    exact F.strict.heeds_bind (F.strict.heeds_of (F.follows_ofReading _)) fun reply => ih reply b
  | attempt p next ih =>
    have hattempt := F.strict.follows_attempt (hrun p b).follows
    exact F.strict.heeds_bind (F.strict.heeds_within_some hattempt (hrun p b)) fun r => ih r b
  | reject offset label next ih =>
    exact F.strict.heeds_bind (F.strict.heeds_of (F.reject offset label)) fun f => ih f b
  | speculate accept body next ihbody ih =>
    refine F.strict.heeds_bind ?_ fun r => ih r b
    refine F.strict.heeds_within (F.follows_speculate accept (ihbody b).follows) fun s t hs ht => ?_
    cases ht
    exact ⟨b, F.ready_of_leads hs (F.moved _ hs), ihbody b⟩
  | parse p config next ih =>
    refine F.strict.heeds_bind ?_ fun r => ih r b
    exact F.heeds_parse (F.follows_ofReading _) (fun s => ⟨_, config, rfl⟩) (hrun p b)
  | lookahead p next ih =>
    refine F.strict.heeds_bind ?_ fun r => ih r b
    exact F.heeds_parse (F.follows_ofReading _) (fun s => ⟨_, {}, rfl⟩) (hrun p b)
  | parseText text rule next ih =>
    rw [Procedure.chronicle]
    rcases g.rules rule with p | _ | _
    · refine F.strict.heeds_bind ?_ fun r => ih r b
      exact F.heeds_parse (F.follows_liftM _) (fun s => ⟨_, {}, rfl⟩) (hrun p b)
    · exact F.strict.heeds_of (.halt _)
    · exact F.strict.heeds_of (.halt _)
  | apart config body next ihbody ih =>
    refine F.strict.heeds_bind ?_ fun told => ih told.1 told.2 b
    exact F.heeds_parse (F.follows_ofReading _) (fun s => ⟨_, config, rfl⟩) (ihbody b)

/-- All parsers heed the course. -/
theorem heeds_run (g : Grammar κ α) (fuel : Nat) (p : Parser κ α) (b : Nat) :
    C.Heeds b (p.chronicle g fuel) :=
  F.strict.heeds_run_of g (fun _ hrun key b => F.heeds_steps hrun (g.procedures key) b) fuel p b

end CursorFree

end Course

end ParseTrail
