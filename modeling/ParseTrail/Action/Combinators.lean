import ParseTrail.Action.Recording

/-!
# Combining actions

What each way of putting parsers together does, as an action made of the actions of its parts. A
loop that input alone does not bound is given a number of turns.
-/

namespace ParseTrail.Action

variable {β γ : Type}

/-! ### Characters -/

/-- Matches a text. -/
def literal (s : String) : Action Unit := do
  let start ← position
  let found ← read s.length
  if found = s.toList then return ()
  else expectedFound start (Text.quoted s) found

/-- Matches one character that satisfies a condition. -/
def satisfy (label : String) (condition : Char → Bool) : Action Char := do
  let start ← position
  match ← readChar with
  | some c => if condition c then return c else expectedFound start label [c]
  | none => expected start label

/-- Matches the end of input. -/
def ending (label : String) : Action Unit := do
  let start ← position
  if ← atEnd then return ()
  expectedFound start label (← peek 1)

/-! ### Repetition -/

/-- Repeats until the end of input or a recoverable failure, at most `fuel` times. The values
come after those in `done`, which stand last first. -/
def many (item : Action β) : Nat → List β → Action (List β)
  | 0, _ => outOfFuel
  | fuel + 1, done => do
    if ← atEnd then return done.reverse
    match ← recover item with
    | some b => many item fuel (b :: done)
    | none => return done.reverse

/-- Repeats exactly `n` times, after the values in `done`, which stand last first. -/
def timesAfter (item : Action β) : Nat → List β → Action (List β)
  | 0, done => return done.reverse
  | n + 1, done => do timesAfter item n ((← item) :: done)

/-- Repeats exactly `n` times, if a list can be that long. -/
def times (item : Action β) (n : Nat) : Action (List β) :=
  if n < listLimit then timesAfter item n [] else fault .limitExceeded

/-- Repeats separator and item until the end of input or a recoverable failure, at most `fuel`
times. A separator that no item follows is not consumed. -/
def sepTail (item : Action β) (separator : Action γ) : Nat → List β → Action (List β)
  | 0, _ => outOfFuel
  | fuel + 1, done => do
    if ← atEnd then return done.reverse
    let mark ← position
    match ← recover separator with
    | none => return done.reverse
    | some _ =>
      match ← recover item with
      | some b => sepTail item separator fuel (b :: done)
      | none =>
        returnTo mark
        return done.reverse

/-- Items with separators between them, possibly none. -/
def sepBy (item : Action β) (separator : Action γ) (fuel : Nat) : Action (List β) := do
  if ← atEnd then return []
  match ← recover item with
  | some b => sepTail item separator fuel [b]
  | none => return []

/-! ### Alternatives and lookahead -/

/-- The first of several alternatives that does not fail recoverably. -/
def firstOf (label : String) : List (Action β) → Action β
  | [] => do expected (← position) label
  | arm :: arms => do
    match ← recover arm with
    | some b => return b
    | none => firstOf label arms

/-- Commits to an action. -/
def cut (x : Action β) : Action β := do
  match ← attempt x with
  | .ok b => return b
  | .error f => throw f.commit

/-- Runs an action and returns to where it began, whatever comes of it. -/
def lookahead (x : Action β) : Action β := do
  let start ← position
  let result ← attempt x
  returnTo start
  ofAttempt result

/-- Runs an action where another, tried first, fails recoverably. -/
def butNot (label : String) (x : Action β) (excluded : Action γ) : Action β := do
  let start ← position
  match ← recover excluded with
  | some _ =>
    returnTo start
    expected start label
  | none => x

/-- Runs an action and converts its value, or rejects what it matched. -/
def tryMap (f : β → Except String γ) (x : Action β) : Action γ := do
  let start ← position
  let b ← x
  match f b with
  | .ok c => return c
  | .error reason => throw (← reject start reason)

/-! ### Scopes -/

/-- Runs an action in a scope of the cursor, and returns to where it began unless it gives an
accepted value. -/
def speculate (accept : β → Bool) (x : Action β) : Action (Except Failure β) := do
  let start ← position
  ofReading (modify (·.openScope))
  let result ← attempt x
  ofReading (modify (·.closeScope))
  let accepted := match result with
    | .ok b => accept b
    | .error _ => false
  if !accepted then returnTo start
  return result

end ParseTrail.Action
