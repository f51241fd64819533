import ParseTrail.Parser.Run

/-!
# Matching in any world

What a parser does is fixed by a few things it asks of the world around it: to read, to remember a
place and to go back to it, to fail, to absorb a failure and to record an attempt. An `Engine`
gives these in some monad, and the functions below run parsers in it. Sessions are one engine:

- `run_sessionEngine`: running a parser in the engine of sessions is `Parser.run`.

A statement about all engines that are related to each other (`Engine.Simulation`) thus speaks
about parsers on a cursor, and about their meaning in every other world.
-/

namespace ParseTrail

/-- What matching asks of the world. Places have type `μ`, computations with a result in `β` have
type `M β`. -/
structure Engine (M : Type → Type) (μ : Type) where
  /-- Has no answer. -/
  fault {β : Type} (cause : Fault) : M β
  /-- Stops for lack of fuel. -/
  outOfFuel {β : Type} : M β
  /-- The present place. -/
  here : M μ
  /-- Goes back to a place. -/
  returnTo (place : μ) : M Unit
  /-- Reads `n` characters, or those left if there are fewer. -/
  read (n : Nat) : M (List Char)
  /-- Reads one character, if there is one left. -/
  readChar : M (Option Char)
  /-- Looks at the next `n` characters, or those left if there are fewer. -/
  peek (n : Nat) : M (List Char)
  /-- Whether no input is left. -/
  atEnd : M Bool
  /-- Fails recoverably. -/
  expected {β : Type} (place : μ) (label : String) : M β
  /-- Fails recoverably, telling what was found. -/
  expectedFound {β : Type} (place : μ) (label : String) (found : List Char) : M β
  /-- Rejects what was matched since a place. -/
  reject {β : Type} (place : μ) (reason : String) : M β
  /-- Gives nothing where the computation fails recoverably. -/
  recover {β : Type} (x : M β) : M (Option β)
  /-- Commits to a computation. -/
  cut {β : Type} (x : M β) : M β
  /-- Runs a computation and goes back to where it began. -/
  lookahead {β : Type} (x : M β) : M β
  /-- Runs a computation as an attempt. If it fails, the world goes back to where it was. -/
  recorded {β : Type} (label : String) (shape : Shape) (x : M β) : M β

namespace Engine

variable {M : Type → Type} [Monad M] {μ : Type} (E : Engine M μ) {β γ κ α : Type}

/-! ### The ways of matching -/

/-- Matches a text. -/
def literal (s : String) : M Unit := do
  let start ← E.here
  let found ← E.read s.length
  if found = s.toList then return ()
  else E.expectedFound start (Text.quoted s) found

/-- Matches one character that satisfies a condition. -/
def satisfy (label : String) (condition : Char → Bool) : M Char := do
  let start ← E.here
  match ← E.readChar with
  | some c => if condition c then return c else E.expectedFound start label [c]
  | none => E.expected start label

/-- Matches the end of input. -/
def ending (label : String) : M Unit := do
  let start ← E.here
  if ← E.atEnd then return ()
  E.expectedFound start label (← E.peek 1)

/-- Repeats until the end of input or a recoverable failure, at most `fuel` times. -/
def many (item : M β) : Nat → List β → M (List β)
  | 0, _ => E.outOfFuel
  | fuel + 1, done => do
    if ← E.atEnd then return done.reverse
    match ← E.recover item with
    | some b => many item fuel (b :: done)
    | none => return done.reverse

/-- Repeats exactly `n` times. -/
def timesAfter (item : M β) : Nat → List β → M (List β)
  | 0, done => return done.reverse
  | n + 1, done => do timesAfter item n ((← item) :: done)

/-- Repeats exactly `n` times, if a list can be that long. -/
def times (item : M β) (n : Nat) : M (List β) :=
  if n < listLimit then timesAfter item n [] else E.fault .limitExceeded

/-- Repeats separator and item, at most `fuel` times. -/
def sepTail (item : M β) (separator : M γ) : Nat → List β → M (List β)
  | 0, _ => E.outOfFuel
  | fuel + 1, done => do
    if ← E.atEnd then return done.reverse
    let mark ← E.here
    match ← E.recover separator with
    | none => return done.reverse
    | some _ =>
      match ← E.recover item with
      | some b => sepTail item separator fuel (b :: done)
      | none =>
        E.returnTo mark
        return done.reverse

/-- Items with separators between them, possibly none. -/
def sepBy (item : M β) (separator : M γ) (fuel : Nat) : M (List β) := do
  if ← E.atEnd then return []
  match ← E.recover item with
  | some b => sepTail E item separator fuel [b]
  | none => return []

/-- The first of several alternatives that does not fail recoverably. -/
def firstOf (label : String) : List (M β) → M β
  | [] => do E.expected (← E.here) label
  | arm :: arms => do
    match ← E.recover arm with
    | some b => return b
    | none => firstOf label arms

/-- Runs a computation where another, tried first, fails recoverably. -/
def butNot (label : String) (x : M β) (excluded : M γ) : M β := do
  let start ← E.here
  match ← E.recover excluded with
  | some _ =>
    E.returnTo start
    E.expected start label
  | none => x

/-- Runs a computation and converts its value, or rejects what it matched. -/
def tryMap (f : β → Except String γ) (x : M β) : M γ := do
  let start ← E.here
  let b ← x
  match f b with
  | .ok c => return c
  | .error reason => E.reject start reason

/-! ### Matchers and parsers -/

/-- What a matcher does, given what parsers and procedures do. -/
def perform (rules : Nat → Rule κ α) (procedure : κ → M (Value α))
    (run : Parser κ α → M (Value α)) (fuel : Nat) (m : Matcher κ α) : M (Value α) :=
  match m with
  | .literal s => do
    literal E s
    return .text s
  | .satisfy label condition => .char <$> satisfy E label condition
  | .ending => do
    ending E m.label
    return .unit
  | .succeed v => return v
  | .refuse label => do E.expected (← E.here) label
  | .many p => .list <$> many E (run p) fuel []
  | .many1 p => do
    let first ← run p
    .list <$> many E (run p) fuel [first]
  | .times n p => .list <$> times E (run p) n
  | .optional p => do
    match ← E.recover (run p) with
    | some v => return .present v
    | none => return .absent
  | .sepBy p separator => .list <$> sepBy E (run p) (run separator) fuel
  | .sepBy1 p separator => do
    let first ← run p
    .list <$> sepTail E (run p) (run separator) fuel [first]
  | .choice arms => firstOf E (Matcher.armsLabel arms) (arms.map run)
  | .cut p => E.cut (run p)
  | .between opening closing p => do
    let _ ← run opening
    let v ← run p
    let _ ← run closing
    return v
  | .lookahead p => E.lookahead (run p)
  | .butNot p excluded => butNot E m.label (run p) (run excluded)
  | .andThen p q => do
    let _ ← run p
    run q
  | .before p q => do
    let v ← run p
    let _ ← run q
    return v
  | .both p q => do
    let v ← run p
    return .pair v (← run q)
  | .map f p => f <$> run p
  | .tryMap f p => tryMap E f (run p)
  | .rule key =>
    match rules key with
    | .defined p => run p
    | .pending => E.fault .rulePending
    | .dropped => E.fault .ruleDropped
  | .procedure key => procedure key

/-- Runs a parser. Parsers may nest at most `fuel` deep. -/
def run (rules : Nat → Rule κ α)
    (procedure : (Parser κ α → M (Value α)) → κ → M (Value α)) :
    Nat → Parser κ α → M (Value α)
  | 0, _ => E.outOfFuel
  | fuel + 1, p =>
    E.recorded p.label p.shape
      (perform E rules (procedure (run rules procedure fuel)) (run rules procedure fuel) fuel
        p.matcher)

end Engine

/-! ### Sessions -/

/-- Sessions as a world to match in. -/
def sessionEngine : Engine Action Nat where
  fault := Action.fault
  outOfFuel := Action.outOfFuel
  here := Action.position
  returnTo := Action.returnTo
  read := Action.read
  readChar := Action.readChar
  peek := Action.peek
  atEnd := Action.atEnd
  expected := Action.expected
  expectedFound := Action.expectedFound
  reject place reason := do throw (← Action.reject place reason)
  recover := Action.recover
  cut := Action.cut
  lookahead := Action.lookahead
  recorded := Action.recorded

section

variable {β γ κ α : Type}

theorem many_sessionEngine (item : Action β) (fuel : Nat) (done : List β) :
    Engine.many sessionEngine item fuel done = Action.many item fuel done := by
  induction fuel generalizing done with
  | zero => rfl
  | succ fuel ih => simp only [Engine.many, Action.many, ih]; rfl

theorem timesAfter_sessionEngine (item : Action β) (n : Nat) (done : List β) :
    Engine.timesAfter item n done = Action.timesAfter item n done := by
  induction n generalizing done with
  | zero => rfl
  | succ n ih => simp only [Engine.timesAfter, Action.timesAfter, ih]

theorem sepTail_sessionEngine (item : Action β) (separator : Action γ) (fuel : Nat)
    (done : List β) :
    Engine.sepTail sessionEngine item separator fuel done =
      Action.sepTail item separator fuel done := by
  induction fuel generalizing done with
  | zero => rfl
  | succ fuel ih => simp only [Engine.sepTail, Action.sepTail, ih]; rfl

theorem firstOf_sessionEngine (label : String) (arms : List (Action β)) :
    Engine.firstOf sessionEngine label arms = Action.firstOf label arms := by
  induction arms with
  | nil => rfl
  | cons arm arms ih => simp only [Engine.firstOf, Action.firstOf, ih]; rfl

theorem perform_sessionEngine (g : Grammar κ α) (run : Parser κ α → Action (Value α)) (fuel : Nat)
    (m : Matcher κ α) :
    Engine.perform sessionEngine g.rules (fun key => (g.procedures key).perform g run) run fuel m =
      m.perform g run fuel := by
  cases m with
  | many p => exact congrArg (Value.list <$> ·) (many_sessionEngine _ _ _)
  | many1 p =>
    simp only [Engine.perform, Matcher.perform, many_sessionEngine]
  | times n p =>
    simp only [Engine.perform, Matcher.perform, Engine.times, Action.times,
      timesAfter_sessionEngine]
    rfl
  | sepBy p separator =>
    simp only [Engine.perform, Matcher.perform, Engine.sepBy, Action.sepBy, sepTail_sessionEngine]
    rfl
  | sepBy1 p separator =>
    simp only [Engine.perform, Matcher.perform, sepTail_sessionEngine]
  | choice arms => exact firstOf_sessionEngine _ _
  | _ => rfl

/-- Running a parser in the engine of sessions is running it. -/
theorem run_sessionEngine (g : Grammar κ α) (fuel : Nat) (p : Parser κ α) :
    Engine.run sessionEngine g.rules (fun run key => (g.procedures key).perform g run) fuel p =
      p.run g fuel := by
  induction fuel generalizing p with
  | zero => rfl
  | succ fuel ih =>
    have hrun : Engine.run sessionEngine g.rules
        (fun run key => (g.procedures key).perform g run) fuel = Parser.run g fuel := funext ih
    simp only [Engine.run, Parser.run, hrun]
    exact congrArg (Action.recorded p.label p.shape) (perform_sessionEngine g _ fuel p.matcher)

end

end ParseTrail
