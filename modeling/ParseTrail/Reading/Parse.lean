import ParseTrail.Session

/-!
# Parsing at a cursor

A parse runs an action in a session and a scope of its own. If it does not match, the cursor
returns to where it was and the trail becomes a report.
-/

namespace ParseTrail.Reading

variable {β : Type}

/-- Runs an action in a session of its own, and gives its result and its trail. -/
def session (config : Config) (x : Action β) : Reading (Except Failure β × Trail) :=
  fun c => do
    let (result, s) ← x.run.run (Session.start c config)
    return ((result, s.trail), s.cursor)

/-- The diagnosis of a parse that did not match. It reads ahead to the end of the line that it
shows. -/
def diagnose (trail : Trail) (committed : Bool) : Reading ParseError := do
  match ← ask (.lineAt trail.furthestStart) with
  | .error e => return .source e
  | .ok line =>
    let report ← liftM (Halt.check (Report.ofTrail trail line))
    return .failed { trail, report, committed }

/-- The error of a parse that failed. -/
def errorOf (trail : Trail) : Failure → Reading ParseError
  | .expected _ => diagnose trail false
  | .committed _ => diagnose trail true
  | .tooDeep depth limit => return .tooDeep depth limit
  | .source e => return .source e

/-- Runs an action in a session and a scope of its own. -/
def invoke (config : Config) (x : Action β) : Reading (Except ParseError β) := do
  let start ← position
  modify (·.openScope)
  let (result, trail) ← session config x
  modify (·.closeScope)
  match result with
  | .ok b => return .ok b
  | .error f =>
    returnTo start
    return .error (← errorOf trail f)

/-- Parses at the cursor, consuming what matches, and releases the lines left behind. -/
def parse (config : Config) (x : Action β) : Reading (Except ParseError β) := do
  let result ← invoke config x
  modify (·.release)
  return result

/-- Parses at the cursor, consuming nothing. -/
def parseAhead (x : Action β) : Reading (Except ParseError β) := do
  let start ← position
  let result ← invoke {} x
  returnTo start
  return result

end ParseTrail.Reading
