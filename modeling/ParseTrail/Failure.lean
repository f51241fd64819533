import ParseTrail.Source
import ParseTrail.Text.Quoted

/-!
# Failures in flight

A parser that does not match gives a failure. Only a failure that is not committed may be absorbed
by trying something else. A parse that nests too deep, and a source that fails, end everything.
-/

namespace ParseTrail

/-- The label of what has no better one. -/
def unknownLabel : String := "<unknown>"

/-- What a parser expected, and where. -/
structure Expectation where
  /-- Where the parser stood. -/
  offset : Nat
  /-- The label of what was expected. -/
  label : String
  /-- The text found instead, if the parser looked at any. -/
  found? : Option String := none
  deriving DecidableEq, Repr

namespace Expectation

/-- The expectation in words. -/
def message (e : Expectation) : String :=
  s!"expected {e.label} at offset {e.offset}" ++
    match e.found? with
    | some found => ", found " ++ Text.quoted found
    | none => ""

end Expectation

/-- Why a parser run failed. -/
inductive Failure where
  /-- The parser did not match; something else may be tried. -/
  | expected (e : Expectation)
  /-- The parser did not match where nothing else may be tried. -/
  | committed (e : Expectation)
  /-- Parsers nested to `depth`, past `limit`. -/
  | tooDeep (depth limit : Nat)
  /-- The source failed. -/
  | source (e : SourceError)
  deriving DecidableEq, Repr

namespace Failure

/-- Whether something else may be tried. -/
def isRecoverable : Failure → Bool
  | expected _ => true
  | _ => false

/-- Turns a recoverable failure into a committed one. -/
def commit : Failure → Failure
  | expected e => committed e
  | f => f

/-- What was expected, if the parser did not match. -/
def expectation? : Failure → Option Expectation
  | expected e => some e
  | committed e => some e
  | _ => none

/-- The failure in words. -/
def message : Failure → String
  | expected e => e.message
  | committed e => e.message ++ " (committed)"
  | tooDeep depth limit => s!"parser nesting depth {depth} exceeds maximum {limit}"
  | source e => s!"I/O error: {e.message}"

end Failure

end ParseTrail
