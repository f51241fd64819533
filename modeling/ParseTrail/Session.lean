import ParseTrail.Grammar
import ParseTrail.Reading

/-!
# Parsing sessions

The state of a parse in progress, and the actions on it. An action gives a value or a failure, and
in both cases the state after it; or it halts the whole computation.
-/

namespace ParseTrail

/-- A parse in progress. -/
structure Session where
  /-- The input. -/
  cursor : Cursor
  /-- The attempts so far. -/
  trail : Trail
  /-- The attempt in progress. -/
  current : Nat := 0
  /-- How deep parsers are nested. -/
  depth : Nat := 0
  /-- How deep parsers may nest; 0 sets no limit. -/
  maxDepth : Nat := 0

/-- The session at the start of a parse at a cursor. -/
def Session.start (c : Cursor) (config : Config) : Session :=
  { cursor := c, trail := Trail.start c.position, maxDepth := config.maxDepth }

/-- An action in a session. -/
abbrev Action := ExceptT Failure (StateT Session (Except Halt))

namespace Action

variable {β : Type}

/-- Halts with a fault. -/
def fault (cause : Fault) : Action β :=
  throwThe Halt (.fault cause)

/-- Halts for lack of fuel. -/
def outOfFuel : Action β :=
  throwThe Halt .outOfFuel

/-- Runs an action, and gives its failure as a value. -/
def attempt (x : Action β) : Action (Except Failure β) :=
  ExceptT.lift x.run

/-- The result of an attempt as an action. -/
def ofAttempt : Except Failure β → Action β
  | .ok b => pure b
  | .error f => throw f

/-- Runs an action, and gives nothing if it fails recoverably. -/
def recover (x : Action β) : Action (Option β) := do
  match ← attempt x with
  | .ok b => return some b
  | .error f => if f.isRecoverable then return none else throw f

/-! ### The cursor -/

/-- The offset of the cursor. -/
def position : Action Nat :=
  return (← get).cursor.position

/-- Computes with the cursor. -/
def ofReading (x : Reading β) : Action β := do
  let s ← get
  let (b, cursor) ← liftM (x.run s.cursor)
  set { s with cursor }
  return b

/-- Performs an operation on the cursor. -/
def ask (request : Cursor.Request) : Action request.Reply :=
  ofReading (Reading.ask request)

/-- The answer of a source; an error of the source is a failure. -/
def ofSource : Except SourceError β → Action β
  | .ok b => pure b
  | .error e => throw (.source e)

/-- Reads `n` characters, or those left if there are fewer. -/
def read (n : Nat) : Action (List Char) := do
  ofSource (← ask (.read n))

/-- Reads one character, if there is one left. -/
def readChar : Action (Option Char) := do
  ofSource (← ask .readChar)

/-- Looks at the next `n` characters, or those left if there are fewer. -/
def peek (n : Nat) : Action (List Char) := do
  ofSource (← ask (.peek n))

/-- Whether no input is left. -/
def atEnd : Action Bool := do
  ofSource (← ask .atEnd)

/-- Goes back to the offset where a part of a parse began. -/
def returnTo (offset : Nat) : Action Unit :=
  ofReading (Reading.returnTo offset)

end Action

end ParseTrail
