import ParseTrail.Action.Combinators
import ParseTrail.Reading.Parse

/-!
# Running parsers

What procedures and matchers do, given what parsers do; and what parsers do, which is bounded by
fuel because rules may refer to each other without end.
-/

namespace ParseTrail

section

variable {κ α : Type}

open ParseTrail.Action

/-- What a procedure does, given what parsers do. -/
def Procedure.perform (g : Grammar κ α) (run : Parser κ α → Action (Value α)) :
    Procedure κ α → Action (Value α)
  | .done v => return v
  | .fail f => throw f
  | .fault cause => Action.fault cause
  | .depth next => do (next (← get).depth).perform g run
  | .trail next => do (next (← get).trail).perform g run
  | .cursor request next => do (next (← ask request)).perform g run
  | .attempt p next => do (next (← Action.attempt (run p))).perform g run
  | .reject offset label next => do (next (← Action.reject offset label)).perform g run
  | .speculate accept body next => do
    (next (← Action.speculate accept (body.perform g run))).perform g run
  | .parse p config next => do
    (next (← ofReading (Reading.parse config (run p)))).perform g run
  | .lookahead p next => do (next (← ofReading (Reading.parseAhead (run p)))).perform g run
  | .parseText text rule next => do
    match g.rules rule with
    | .defined p =>
      (next (← liftM ((Reading.parse {} (run p)).run' (Cursor.ofText text)))).perform g run
    | .pending => Action.fault .rulePending
    | .dropped => Action.fault .ruleDropped
  | .apart config body next => do
    let told ← ofReading (Reading.session config (body.perform g run))
    (next told.1 told.2).perform g run

/-- What a matcher does, given what parsers do. Its loops take at most `fuel` turns. -/
def Matcher.perform (g : Grammar κ α) (run : Parser κ α → Action (Value α)) (fuel : Nat)
    (m : Matcher κ α) : Action (Value α) :=
  match m with
  | .literal s => do
    Action.literal s
    return .text s
  | .satisfy label condition => .char <$> Action.satisfy label condition
  | .ending => do
    Action.ending m.label
    return .unit
  | .succeed v => return v
  | .refuse label => do expected (← position) label
  | .many p => .list <$> Action.many (run p) fuel []
  | .many1 p => do
    let first ← run p
    .list <$> Action.many (run p) fuel [first]
  | .times n p => .list <$> Action.times (run p) n
  | .optional p => do
    match ← recover (run p) with
    | some v => return .present v
    | none => return .absent
  | .sepBy p separator => .list <$> Action.sepBy (run p) (run separator) fuel
  | .sepBy1 p separator => do
    let first ← run p
    .list <$> sepTail (run p) (run separator) fuel [first]
  | .choice arms => firstOf (armsLabel arms) (arms.map run)
  | .cut p => Action.cut (run p)
  | .between opening closing p => do
    let _ ← run opening
    let v ← run p
    let _ ← run closing
    return v
  | .lookahead p => Action.lookahead (run p)
  | .butNot p excluded => Action.butNot m.label (run p) (run excluded)
  | .andThen p q => do
    let _ ← run p
    run q
  | .before p q => do
    let v ← run p
    let _ ← run q
    return v
  | .both p q => do
    let v ← run p
    return .pair v (← run q)
  | .map f p => f <$> run p
  | .tryMap f p => Action.tryMap f (run p)
  | .rule key =>
    match g.rules key with
    | .defined p => run p
    | .pending => fault .rulePending
    | .dropped => fault .ruleDropped
  | .procedure key => (g.procedures key).perform g run

/-- Runs a parser in a session. Parsers may nest at most `fuel` deep. -/
def Parser.run (g : Grammar κ α) : Nat → Parser κ α → Action (Value α)
  | 0, _ => outOfFuel
  | fuel + 1, p => recorded p.label p.shape (p.matcher.perform g (Parser.run g fuel) fuel)

/-- Parses at the cursor, consuming what matches. -/
def Parser.parse (g : Grammar κ α) (fuel : Nat) (config : Config) (p : Parser κ α) :
    Reading (Except ParseError (Value α)) :=
  Reading.parse config (p.run g fuel)

/-- Parses at the cursor, consuming nothing. -/
def Parser.parseAhead (g : Grammar κ α) (fuel : Nat) (p : Parser κ α) :
    Reading (Except ParseError (Value α)) :=
  Reading.parseAhead (p.run g fuel)

/-- Whether a parser matches at the cursor. Nothing is consumed, and only input that does not
match is told by `false`. -/
def Parser.matchesAt (g : Grammar κ α) (fuel : Nat) (p : Parser κ α) :
    Reading (Except ParseError Bool) := do
  match ← p.parseAhead g fuel with
  | .ok _ => return .ok true
  | .error (.failed _) => return .ok false
  | .error e => return .error e

/-- Parses a text. -/
def Parser.parseText (g : Grammar κ α) (fuel : Nat) (config : Config) (p : Parser κ α)
    (text : String) : Except Halt (Except ParseError (Value α)) :=
  (p.parse g fuel config).run' (Cursor.ofText text)

/-- Parses what a byte source hands out. -/
def Parser.parseSource (g : Grammar κ α) (fuel : Nat) (config : Config) (p : Parser κ α)
    (src : Source) : Except Halt (Except ParseError (Value α)) := do
  let c ← Halt.check (Cursor.ofReader config.readCapacity src)
  (p.parse g fuel config).run' c

end

end ParseTrail
