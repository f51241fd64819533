import ParseTrail.Proofs.Session.Chronicle
import ParseTrail.Proofs.Trail.Deferred

/-!
# A ledger of attempts

A trail does not tell whether an attempt was to dissolve those around it. So each attempt is entered
in a ledger when it completes, with the shape of its parser and the nearest anchor above it at that
time. Attempts on other trails, of parses that procedures begin anew, are not entered. The ledger is
kept beside the outcome, and it has no part in what happens:

- `Procedure.ledger`, `Parser.ledger`: the steps of a procedure and the run of a parser, with their
  ledgers;
- `Procedure.ledger_action`, `Parser.ledger_action`: without them they are what they were.
-/

namespace ParseTrail

/-- A computation with the attempts that complete in it, in order. -/
def Ledger (β : Type) : Type :=
  Session → Except Halt (Except Failure β × Session) × List Completion

namespace Ledger

variable {β γ : Type}

/-- An action in which no attempt completes. -/
def of (x : Action β) : Ledger β :=
  fun s => (outcome x s, [])

/-- A computation without its ledger. -/
def action (x : Ledger β) : Action β :=
  fun s => (x s).1

/-- What comes after a computation is entered after it. -/
def andThen (x : Ledger β) (k : β → Ledger γ) : Ledger γ :=
  fun s =>
    match x s with
    | (.error h, past) => (.error h, past)
    | (.ok (.error f, t), past) => (.ok (.error f, t), past)
    | (.ok (.ok v, t), past) => ((k v t).1, past ++ (k v t).2)

instance : Monad Ledger where
  pure v := of (pure v)
  bind := andThen

/-- An action that runs a computation as a part of it, with the ledger of the part. The part begins
with the cursor that `begins` gives. -/
def within (begins : Cursor → Cursor) (F : Action β → Action γ) (x : Ledger β) : Ledger γ :=
  fun s => (outcome (F x.action) s, (x { s with cursor := begins s.cursor }).2)

/-- Runs a computation as an attempt, which is entered after those that complete in it. -/
def recorded (label : String) (shape : Shape) (x : Ledger β) : Ledger β :=
  fun s =>
    let entries :=
      match s.enter? label shape with
      | none => []
      | some inner =>
        let completion (t : Session) : Completion :=
          ⟨s.trail.size, shape, t.trail.nearestAnchor s.trail.size⟩
        (x inner).2 ++ (lastSession (x inner).1).map completion
    (outcome (Action.recorded label shape x.action) s, entries)

end Ledger

/-- Sessions with a ledger as a world to match in. -/
def ledgerEngine : Engine Ledger Nat where
  fault cause := .of (Action.fault cause)
  outOfFuel := .of Action.outOfFuel
  here := .of Action.position
  returnTo offset := .of (Action.returnTo offset)
  read n := .of (Action.read n)
  readChar := .of Action.readChar
  peek n := .of (Action.peek n)
  atEnd := .of Action.atEnd
  expected offset label := .of (Action.expected offset label)
  expectedFound offset label found := .of (Action.expectedFound offset label found)
  reject offset reason := .of (sessionEngine.reject offset reason)
  recover := .within id Action.recover
  cut := .within id Action.cut
  lookahead := .within id Action.lookahead
  recorded := Ledger.recorded

section

variable {κ α : Type}

/-- The steps of a procedure with their ledger, given that of running parsers. -/
def Procedure.ledger (g : Grammar κ α) (run : Parser κ α → Ledger (Value α)) :
    Procedure κ α → Ledger (Value α)
  | .done v => pure v
  | .fail f => .of (throw f)
  | .fault cause => .of (Action.fault cause)
  | .depth next => fun s => (next s.depth).ledger g run s
  | .trail next => fun s => (next s.trail).ledger g run s
  | .cursor request next => do (next (← .of (Action.ask request))).ledger g run
  | .attempt p next => do (next (← .within id Action.attempt (run p))).ledger g run
  | .reject offset label next => do (next (← .of (Action.reject offset label))).ledger g run
  | .speculate accept body next => do
    let speculate := Ledger.within Cursor.openScope (Action.speculate accept) (body.ledger g run)
    (next (← speculate)).ledger g run
  | .parse p config next => do
    (next (← .of (Action.ofReading (Reading.parse config (run p).action)))).ledger g run
  | .lookahead p next => do
    (next (← .of (Action.ofReading (Reading.parseAhead (run p).action)))).ledger g run
  | .parseText text rule next =>
    match g.rules rule with
    | .defined p => do
      let parse := (Reading.parse {} (run p).action).run' (Cursor.ofText text)
      (next (← .of (liftM parse))).ledger g run
    | .pending => .of (Action.fault .rulePending)
    | .dropped => .of (Action.fault .ruleDropped)
  | .apart config body next => do
    let told ← .of (Action.ofReading (Reading.session config (body.ledger g run).action))
    (next told.1 told.2).ledger g run

/-- The run of a parser with its ledger. -/
def Parser.ledger (g : Grammar κ α) : Nat → Parser κ α → Ledger (Value α) :=
  ledgerEngine.run g.rules fun run key => (g.procedures key).ledger g run

/-- The attempts that complete in the run of a parser, from a new session on. -/
def Parser.completions (g : Grammar κ α) (fuel : Nat) (p : Parser κ α) (c : Cursor)
    (config : Config) : List Completion :=
  (p.ledger g fuel (Session.start c config)).2

/-! ### Without the ledger -/

variable {β γ : Type}

theorem Ledger.action_bind (x : Ledger β) (f : β → Ledger γ) :
    (x >>= f).action = x.action >>= fun v => (f v).action := by
  funext s
  change (Ledger.andThen x f s).1 = outcome (x.action >>= fun v => (f v).action) s
  have hx : outcome x.action s = (x s).1 := rfl
  rw [outcome_bind, hx, Ledger.andThen]
  rcases x s with ⟨halt | ⟨f | v, t⟩, past⟩ <;> rfl

/-- What is done with a ledger is what is done in a session. -/
theorem simulation_ledger_action :
    Engine.Simulation ledgerEngine sessionEngine (fun (_ : Unit) m n => m = n)
      (fun _ _ x y => x.action = y) where
  pure _ := rfl
  bind := by
    rintro _ β γ x _ f k rfl hfk
    rw [Ledger.action_bind]
    exact congrArg (x.action >>= ·) (funext hfk)
  map := by
    rintro _ β γ x _ f rfl
    exact Ledger.action_bind x fun v => pure (f v)
  here := by
    intro _ β f k hfk
    rw [Ledger.action_bind]
    exact congrArg (Action.position >>= ·) (funext fun m => hfk () m m rfl)
  returnTo := by
    rintro _ m _ rfl
    rfl
  read _ := rfl
  readChar := rfl
  peek _ := rfl
  atEnd := rfl
  expected := by
    rintro _ m _ β label rfl
    rfl
  expectedFound := by
    rintro _ m _ β label found rfl
    rfl
  reject := by
    rintro _ m _ β reason rfl
    rfl
  outOfFuel := rfl
  limitExceeded := rfl
  rulePending := rfl
  ruleDropped := rfl
  recover h := congrArg Action.recover h
  cut h := congrArg Action.cut h
  lookahead h := congrArg Action.lookahead (h ())

theorem Procedure.ledger_action (g : Grammar κ α) (procedure : Procedure κ α)
    {run : Parser κ α → Ledger (Value α)} {run' : Parser κ α → Action (Value α)}
    (hrun : ∀ p, (run p).action = run' p) :
    (procedure.ledger g run).action = procedure.perform g run' := by
  -- Attempts and speculations keep the ledgers of their parts. Parses that are begun anew are done
  -- without.
  induction procedure with
  | done v => rfl
  | fail f => rfl
  | fault cause => rfl
  | depth next ih =>
    funext s
    exact congrFun (ih s.depth) s
  | trail next ih =>
    funext s
    exact congrFun (ih s.trail) s
  | cursor request next ih =>
    rw [Procedure.ledger, Ledger.action_bind]
    exact congrArg (Action.ask request >>= ·) (funext ih)
  | attempt p next ih =>
    rw [Procedure.ledger, Ledger.action_bind, Procedure.perform, ← hrun p]
    exact congrArg (Action.attempt (run p).action >>= ·) (funext ih)
  | reject offset label next ih =>
    rw [Procedure.ledger, Ledger.action_bind]
    exact congrArg (Action.reject offset label >>= ·) (funext ih)
  | speculate accept body next ihbody ih =>
    rw [Procedure.ledger, Ledger.action_bind, Procedure.perform, ← ihbody]
    exact congrArg (Action.speculate accept (body.ledger g run).action >>= ·) (funext ih)
  | parse p config next ih =>
    rw [Procedure.ledger, Ledger.action_bind, Procedure.perform, ← hrun p]
    exact congrArg (Action.ofReading (Reading.parse config (run p).action) >>= ·) (funext ih)
  | lookahead p next ih =>
    rw [Procedure.ledger, Ledger.action_bind, Procedure.perform, ← hrun p]
    exact congrArg (Action.ofReading (Reading.parseAhead (run p).action) >>= ·) (funext ih)
  | parseText text rule next ih =>
    rw [Procedure.ledger, Procedure.perform]
    rcases g.rules rule with p | _ | _
    · dsimp only
      rw [Ledger.action_bind, ← hrun p]
      exact congrArg (_ >>= ·) (funext ih)
    · rfl
    · rfl
  | apart config body next ihbody ih =>
    rw [Procedure.ledger, Ledger.action_bind, Procedure.perform, ← ihbody]
    exact congrArg (Action.ofReading (Reading.session config (body.ledger g run).action) >>= ·)
      (funext fun told => ih told.1 told.2)

theorem Parser.ledger_action (g : Grammar κ α) (fuel : Nat) (p : Parser κ α) :
    (p.ledger g fuel).action = p.run g fuel := by
  rw [← run_sessionEngine]
  exact simulation_ledger_action.run
    (fun label shape _ _ h _ => congrArg (Action.recorded label shape) (h ()))
    (fun _ _ hrun key _ => (g.procedures key).ledger_action g fun q => hrun q ()) fuel p ()

end

end ParseTrail
