import ParseTrail.Proofs.Session.Course

/-!
# A chronicle of sessions

To speak of what holds at every moment of a computation, every session that it passes through is
written down as it comes about, also those of the parses that procedures begin anew. The chronicle
is kept even where the computation halts, and it has no part in what happens:

- `Procedure.chronicle`, `Parser.chronicle`: the steps of a procedure and the run of a parser, with
  their chronicles;
- `Procedure.chronicle_action`, `Parser.chronicle_action`: without them they are what they were.
-/

namespace ParseTrail

/-- A computation with the sessions that it passes through, in order. -/
def Chronicle (β : Type) : Type :=
  Session → Except Halt (Except Failure β × Session) × List Session

/-- The session in which a computation ends, unless it halts. -/
def lastSession {β : Type} : Except Halt (Except Failure β × Session) → List Session
  | .error _ => []
  | .ok (_, t) => [t]

namespace Chronicle

variable {β γ : Type}

/-- An action that is a single step. -/
def of (x : Action β) : Chronicle β :=
  fun s => (outcome x s, lastSession (outcome x s))

/-- A computation without its chronicle. -/
def action (x : Chronicle β) : Action β :=
  fun s => (x s).1

/-- What comes after a computation is written down after it. -/
def andThen (x : Chronicle β) (k : β → Chronicle γ) : Chronicle γ :=
  fun s =>
    match x s with
    | (.error h, past) => (.error h, past)
    | (.ok (.error f, t), past) => (.ok (.error f, t), past)
    | (.ok (.ok v, t), past) => ((k v t).1, past ++ (k v t).2)

instance : Monad Chronicle where
  pure v := fun s => (.ok (.ok v, s), [])
  bind := andThen

/-- An action that runs a computation as a part of it, with the chronicle of the part. The part
begins in the session that `begins` gives, and is left out if there is none. -/
def within (begins : Session → Option Session) (F : Action β → Action γ) (x : Chronicle β) :
    Chronicle γ :=
  fun s =>
    let told := outcome (F x.action) s
    let part :=
      match begins s with
      | some t => t :: (x t).2
      | none => []
    (told, part ++ lastSession told)

end Chronicle

/-- The session in which an attempt has been opened, unless it would nest too deep. -/
def Session.enter? (s : Session) (label : String) (shape : Shape) : Option Session :=
  if s.maxDepth ≠ 0 ∧ s.depth ≥ s.maxDepth then none else some (s.entered label shape.anchor)

/-- Sessions with a chronicle as a world to match in. -/
def chronicleEngine : Engine Chronicle Nat where
  fault cause := .of (Action.fault cause)
  outOfFuel := .of Action.outOfFuel
  here := .of Action.position
  returnTo offset := .of (Action.returnTo offset)
  read n := .of (Action.read n)
  readChar := .of Action.readChar
  peek n := .of (Action.peek n)
  atEnd := .of Action.atEnd
  expected offset label := .of (Action.expected offset label)
  expectedFound offset label found := .of (Action.expectedFound offset label found)
  reject offset reason := .of (sessionEngine.reject offset reason)
  recover := .within some Action.recover
  cut := .within some Action.cut
  lookahead := .within some Action.lookahead
  recorded label shape := .within (·.enter? label shape) (Action.recorded label shape)

section

variable {κ α : Type}

/-- The steps of a procedure with their chronicle, given that of running parsers. -/
def Procedure.chronicle (g : Grammar κ α) (run : Parser κ α → Chronicle (Value α)) :
    Procedure κ α → Chronicle (Value α)
  | .done v => pure v
  | .fail f => .of (throw f)
  | .fault cause => .of (Action.fault cause)
  | .depth next => fun s => (next s.depth).chronicle g run s
  | .trail next => fun s => (next s.trail).chronicle g run s
  | .cursor request next => do (next (← .of (Action.ask request))).chronicle g run
  | .attempt p next => do (next (← .within some Action.attempt (run p))).chronicle g run
  | .reject offset label next => do (next (← .of (Action.reject offset label))).chronicle g run
  | .speculate accept body next => do
    let begins (s : Session) := some { s with cursor := s.cursor.openScope }
    (next (← .within begins (Action.speculate accept) (body.chronicle g run))).chronicle g run
  | .parse p config next => do
    let begins (s : Session) := some (Session.start s.cursor.openScope config)
    let parse (x : Action (Value α)) := Action.ofReading (Reading.parse config x)
    (next (← .within begins parse (run p))).chronicle g run
  | .lookahead p next => do
    let begins (s : Session) := some (Session.start s.cursor.openScope {})
    let parse (x : Action (Value α)) := Action.ofReading (Reading.parseAhead x)
    (next (← .within begins parse (run p))).chronicle g run
  | .parseText text rule next =>
    match g.rules rule with
    | .defined p => do
      let begins (_ : Session) := some (Session.start (Cursor.ofText text).openScope {})
      let parse (x : Action (Value α)) : Action (Except ParseError (Value α)) :=
        liftM ((Reading.parse {} x).run' (Cursor.ofText text))
      (next (← .within begins parse (run p))).chronicle g run
    | .pending => .of (Action.fault .rulePending)
    | .dropped => .of (Action.fault .ruleDropped)
  | .apart config body next => do
    let begins (s : Session) := some (Session.start s.cursor config)
    let apart (x : Action (Value α)) := Action.ofReading (Reading.session config x)
    let told ← .within begins apart (body.chronicle g run)
    (next told.1 told.2).chronicle g run

/-- The run of a parser with its chronicle. -/
def Parser.chronicle (g : Grammar κ α) : Nat → Parser κ α → Chronicle (Value α) :=
  chronicleEngine.run g.rules fun run key => (g.procedures key).chronicle g run

/-- The moments of the steps of a procedure, from a new session on. -/
def Procedure.moments (g : Grammar κ α) (fuel : Nat) (steps : Procedure κ α) (c : Cursor)
    (config : Config) : List Session :=
  Session.start c config ::
    (steps.chronicle g (Parser.chronicle g fuel) (Session.start c config)).2

/-- The moments of the run of a parser, from a new session on. -/
def Parser.moments (g : Grammar κ α) (fuel : Nat) (p : Parser κ α) (c : Cursor)
    (config : Config) : List Session :=
  Session.start c config :: (p.chronicle g fuel (Session.start c config)).2

/-! ### Without the chronicle -/

variable {β γ : Type}

theorem Chronicle.action_bind (x : Chronicle β) (f : β → Chronicle γ) :
    (x >>= f).action = x.action >>= fun v => (f v).action := by
  funext s
  change (Chronicle.andThen x f s).1 = outcome (x.action >>= fun v => (f v).action) s
  have hx : outcome x.action s = (x s).1 := rfl
  rw [outcome_bind, hx, Chronicle.andThen]
  rcases x s with ⟨halt | ⟨f | v, t⟩, past⟩ <;> rfl

theorem Chronicle.action_map (x : Chronicle β) (f : β → γ) :
    (f <$> x).action = f <$> x.action := by
  change (x >>= fun v => Pure.pure (f v)).action = _
  rw [Chronicle.action_bind]
  rfl

/-- What is done in a chronicle is what is done in a session. -/
theorem simulation_action :
    Engine.Simulation chronicleEngine sessionEngine (fun (_ : Unit) m n => m = n)
      (fun _ _ x y => x.action = y) where
  pure _ := rfl
  bind := by
    rintro _ β γ x _ f k rfl hfk
    rw [Chronicle.action_bind]
    exact congrArg (x.action >>= ·) (funext hfk)
  map := by
    rintro _ β γ x _ f rfl
    exact Chronicle.action_map x f
  here := by
    intro _ β f k hfk
    rw [Chronicle.action_bind]
    exact congrArg (Action.position >>= ·) (funext fun m => hfk () m m rfl)
  returnTo := by
    rintro _ m _ rfl
    rfl
  read _ := rfl
  readChar := rfl
  peek _ := rfl
  atEnd := rfl
  expected := by
    rintro _ m _ β label rfl
    rfl
  expectedFound := by
    rintro _ m _ β label found rfl
    rfl
  reject := by
    rintro _ m _ β reason rfl
    rfl
  outOfFuel := rfl
  limitExceeded := rfl
  rulePending := rfl
  ruleDropped := rfl
  recover h := congrArg Action.recover h
  cut h := congrArg Action.cut h
  lookahead h := congrArg Action.lookahead (h ())

theorem Procedure.chronicle_action (g : Grammar κ α) (procedure : Procedure κ α)
    {run : Parser κ α → Chronicle (Value α)} {run' : Parser κ α → Action (Value α)}
    (hrun : ∀ p, (run p).action = run' p) :
    (procedure.chronicle g run).action = procedure.perform g run' := by
  -- A moment that is kept has no effect on what is done, step by step.
  induction procedure with
  | done v => rfl
  | fail f => rfl
  | fault cause => rfl
  | depth next ih =>
    funext s
    exact congrFun (ih s.depth) s
  | trail next ih =>
    funext s
    exact congrFun (ih s.trail) s
  | cursor request next ih =>
    rw [Procedure.chronicle, Chronicle.action_bind]
    exact congrArg (Action.ask request >>= ·) (funext ih)
  | attempt p next ih =>
    rw [Procedure.chronicle, Chronicle.action_bind, Procedure.perform, ← hrun p]
    exact congrArg (Action.attempt (run p).action >>= ·) (funext ih)
  | reject offset label next ih =>
    rw [Procedure.chronicle, Chronicle.action_bind]
    exact congrArg (Action.reject offset label >>= ·) (funext ih)
  | speculate accept body next ihbody ih =>
    rw [Procedure.chronicle, Chronicle.action_bind, Procedure.perform, ← ihbody]
    exact congrArg (Action.speculate accept (body.chronicle g run).action >>= ·) (funext ih)
  | parse p config next ih =>
    rw [Procedure.chronicle, Chronicle.action_bind, Procedure.perform, ← hrun p]
    exact congrArg (Action.ofReading (Reading.parse config (run p).action) >>= ·) (funext ih)
  | lookahead p next ih =>
    rw [Procedure.chronicle, Chronicle.action_bind, Procedure.perform, ← hrun p]
    exact congrArg (Action.ofReading (Reading.parseAhead (run p).action) >>= ·) (funext ih)
  | parseText text rule next ih =>
    rw [Procedure.chronicle, Procedure.perform]
    rcases g.rules rule with p | _ | _
    · dsimp only
      rw [Chronicle.action_bind, ← hrun p]
      exact congrArg (_ >>= ·) (funext ih)
    · rfl
    · rfl
  | apart config body next ihbody ih =>
    rw [Procedure.chronicle, Chronicle.action_bind, Procedure.perform, ← ihbody]
    exact congrArg (Action.ofReading (Reading.session config (body.chronicle g run).action) >>= ·)
      (funext fun told => ih told.1 told.2)

theorem Parser.chronicle_action (g : Grammar κ α) (fuel : Nat) (p : Parser κ α) :
    (p.chronicle g fuel).action = p.run g fuel := by
  rw [← run_sessionEngine]
  exact simulation_action.run
    (fun label shape _ _ h _ => congrArg (Action.recorded label shape) (h ()))
    (fun _ _ hrun key _ => (g.procedures key).chronicle_action g fun q => hrun q ()) fuel p ()

end

end ParseTrail
