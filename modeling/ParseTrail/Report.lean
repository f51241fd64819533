import ParseTrail.Failure
import ParseTrail.Line
import ParseTrail.Trail.Draw
import ParseTrail.Trail.Trim

/-!
# Failure reports

A report of a failed parse names the most relevant expectation and shows the line where the parse
got furthest, with the attempts made there and those around them underlined, innermost first.
-/

namespace ParseTrail

/-- An attempt shown in a report. -/
structure ReportEntry where
  /-- The input covered. -/
  span : Span
  /-- The label of the parser. -/
  label : String
  /-- Whether it failed. -/
  failed : Bool
  deriving DecidableEq, Repr

/-- What is told of a failed parse. -/
structure Report where
  /-- The label of the most relevant expectation. -/
  expected : String
  /-- The furthest offset where an attempt started. -/
  furthest : Nat
  /-- The column of that offset, from 1. -/
  column : Nat
  /-- The line that holds that offset. -/
  line : Line
  /-- The attempts shown, innermost first. -/
  entries : List ReportEntry
  deriving DecidableEq, Repr

namespace Report

/-- Whether attempt `a` is told rather than `b`: the outermost is, and the latest of those. -/
def outranks (t : Trail) (a b : Nat) : Bool :=
  t.depth a < t.depth b || (t.depth a == t.depth b && b < a)

/-- The label of the outermost failed attempt that starts furthest; of several the latest. -/
def headline? (t : Trail) : Option String :=
  let failed := t.atFurthest.filter fun id => (t.get? id).any (·.failed)
  let best := failed.foldl
    (fun best? id =>
      match best? with
      | none => some id
      | some best => if outranks t id best then some id else some best)
    none
  (best.bind t.get?).map (·.label)

/-- The attempts that start furthest and those around them, innermost first. -/
def entriesOf (t : Trail) : List ReportEntry :=
  let trimmed := t.trimTo t.atFurthest
  trimmed.postOrder.filterMap fun id =>
    (trimmed.get? id).map fun a => ⟨a.span, a.label, a.failed⟩

/-- The report on a trail, where `line` holds the furthest start. -/
def ofTrail (t : Trail) (line : Line) : Except Fault Report := do
  let furthest := t.furthestStart
  let entries := entriesOf t
  let expected :=
    (headline? t).getD (((entries.find? (·.failed)).map (·.label)).getD unknownLabel)
  return { expected, furthest, column := ← line.columnOf furthest, line, entries }

/-- One entry below the reported line. -/
def renderEntry (line : Line) (e : ReportEntry) : Except Fault String := do
  let underline ← line.underline e.span
  let told := s!"{Trail.outcomeWord e.failed}: {e.label}"
  return "\n  " ++ if underline.isEmpty then told else underline ++ " " ++ told

/-- The report as text. -/
def render (r : Report) : Except Fault String := do
  let entries ← r.entries.mapM (renderEntry r.line)
  return s!"expected {r.expected} at line {r.line.number}, column {r.column}\n" ++
    s!"line {r.line.number}:\n  {r.line.text}" ++ String.join entries

end Report

/-- A failed parse: all attempts made, the report on them, and whether it was committed. -/
structure Diagnosis where
  /-- The attempts made. -/
  trail : Trail
  /-- The report on them. -/
  report : Report
  /-- Whether the parse failed where nothing else may be tried. -/
  committed : Bool
  deriving Repr

/-- Why a parse gave no value. -/
inductive ParseError where
  /-- The input did not match. -/
  | failed (d : Diagnosis)
  /-- Parsers nested to `depth`, past `limit`. -/
  | tooDeep (depth limit : Nat)
  /-- The source failed. -/
  | source (e : SourceError)

namespace ParseError

/-- The error in words. -/
def message : ParseError → Except Fault String
  | failed d => d.report.render
  | tooDeep depth limit => .ok s!"Parser nesting depth {depth} exceeds maximum {limit}"
  | source e => .ok s!"I/O error while parsing: {e.message}"

end ParseError

end ParseTrail
