import ParseTrail.Json.Reader
import ParseTrail.Json.Writer
import ParseTrail.Report

/-!
# Reports as JSON

A report is written as an object with its fields in a fixed order. Reading takes the fields in any
order and ignores others, or takes an array of the fields in that order. A field that is missing
or given twice, and a number that is no offset, are refused. A span is taken as it is given.
-/

namespace ParseTrail

/-- The fields of a record by their names: of an object with each of them exactly once, or of an
array of just these fields. -/
def Json.record? (names : List String) : Json → Option (List Json)
  | .array items => if items.length = names.length then some items else none
  | .object fields => do
    let fields ← fields.mapM fun (key, value) => do return (← Json.textOf? key, value)
    names.mapM fun name =>
      match fields.filter (·.1 == name) with
      | [(_, value)] => some value
      | _ => none
  | _ => none

/-- An offset or a count. -/
def Json.offset? : Json → Option Nat :=
  Json.nat? offsetLimit

/-- The values of an array. -/
def Json.elements? : Json → Option (List Json)
  | .array items => some items
  | _ => none

/-- A record with named fields. -/
def Json.ofRecord (fields : List (String × Json)) : Json :=
  .object (fields.map fun (name, value) => (Json.codesOf name, value))

namespace Span

/-- A span as JSON. -/
def toJson (s : Span) : Json :=
  Json.ofRecord [("start", Json.ofNat s.start), ("end", Json.ofNat s.stop)]

/-- The span that a JSON value holds. -/
def ofJson? (json : Json) : Option Span := do
  let [start, stop] ← json.record? ["start", "end"] | none
  return ⟨← start.offset?, ← stop.offset?⟩

end Span

namespace Line

/-- A line as JSON. -/
def toJson (line : Line) : Json :=
  Json.ofRecord
    [("number", Json.ofNat line.number), ("range", line.span.toJson),
      ("text", Json.ofText line.text)]

/-- The line that a JSON value holds. -/
def ofJson? (json : Json) : Option Line := do
  let [number, span, text] ← json.record? ["number", "range", "text"] | none
  return ⟨← number.offset?, ← Span.ofJson? span, ← text.text?⟩

end Line

namespace ReportEntry

/-- Whether the word for an outcome tells a failure. -/
def failedOfWord? : Option String → Option Bool
  | some "success" => some false
  | some "failure" => some true
  | _ => none

/-- Whether an outcome is a failure. An outcome is a word, or an object that gives the word no
value. -/
def failedOfJson? : Json → Option Bool
  | .object [(key, .null)] => failedOfWord? (Json.textOf? key)
  | json => failedOfWord? json.text?

/-- An entry as JSON. -/
def toJson (e : ReportEntry) : Json :=
  Json.ofRecord
    [("range", e.span.toJson), ("label", Json.ofText e.label),
      ("outcome", Json.ofText (Trail.outcomeWord e.failed))]

/-- The entry that a JSON value holds. -/
def ofJson? (json : Json) : Option ReportEntry := do
  let [span, label, outcome] ← json.record? ["range", "label", "outcome"] | none
  return ⟨← Span.ofJson? span, ← label.text?, ← failedOfJson? outcome⟩

end ReportEntry

namespace Report

/-- A report as JSON. -/
def toJson (r : Report) : Json :=
  Json.ofRecord
    [("expected", Json.ofText r.expected), ("furthest", Json.ofNat r.furthest),
      ("column", Json.ofNat r.column), ("line", r.line.toJson),
      ("entries", .array (r.entries.map ReportEntry.toJson))]

/-- The report that a JSON value holds. -/
def ofJson? (json : Json) : Option Report := do
  let [expected, furthest, column, line, entries] ←
    json.record? ["expected", "furthest", "column", "line", "entries"] | none
  return {
    expected := ← expected.text?
    furthest := ← furthest.offset?
    column := ← column.offset?
    line := ← Line.ofJson? line
    entries := ← (← entries.elements?).mapM ReportEntry.ofJson? }

/-- A report as JSON text with one item a line. -/
def renderJson (r : Report) : String :=
  r.toJson.pretty ""

end Report

end ParseTrail
