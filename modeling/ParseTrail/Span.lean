import ParseTrail.Fault
import ParseTrail.Limits
import ParseTrail.Text.Lines

/-!
# Spans of input

A span is a half-open interval of offsets. Spans compare, meet and merge, and a span can be drawn
as an underline below one line of text: one mark per character it covers, and one column past the
end of the line that stands for its terminator.
-/

namespace ParseTrail

/-- The offsets from `start` up to, and without, `stop`. -/
structure Span where
  /-- The first offset. -/
  start : Nat
  /-- One past the last offset. -/
  stop : Nat
  deriving DecidableEq, Repr, Inhabited

namespace Span

/-- The span from `start` to `stop`; a `stop` before `start` collapses to `start`. -/
def of (start stop : Nat) : Span :=
  ⟨start, max stop start⟩

/-- The empty span at an offset. -/
def point (offset : Nat) : Span :=
  ⟨offset, offset⟩

/-- The number of offsets in the span. -/
def length (s : Span) : Nat :=
  s.stop - s.start

/-- Whether the span has no extent. -/
def isEmpty (s : Span) : Bool :=
  s.start == s.stop

/-- Whether an offset lies in the span. -/
def contains (s : Span) (offset : Nat) : Bool :=
  s.start ≤ offset && offset < s.stop

/-- Whether `t` lies within `s`. -/
def covers (s t : Span) : Bool :=
  s.start ≤ t.start && t.stop ≤ s.stop

/-- Whether two spans share a place. An empty span shares a place with another if it lies within
the other's closed bounds, so a place at the end of a line is still on that line. -/
def overlaps (s t : Span) : Bool :=
  match s.isEmpty, t.isEmpty with
  | true, true => s.start == t.start
  | true, false => t.start ≤ s.start && s.start ≤ t.stop
  | false, true => s.start ≤ t.start && t.start ≤ s.stop
  | false, false => s.start < t.stop && t.start < s.stop

/-- The common part of two spans that overlap. -/
def intersection? (s t : Span) : Option Span :=
  if s.overlaps t then some (of (max s.start t.start) (min s.stop t.stop)) else none

/-- The smallest span that covers both. -/
def merge (s t : Span) : Span :=
  of (min s.start t.start) (max s.stop t.stop)

/-- The span as text, such as `3..7`. -/
def render (s : Span) : String :=
  s!"{s.start}..{s.stop}"

/-- A run of one character, if it is not too wide to draw. -/
def repeated (c : Char) (n : Nat) : Except Fault (List Char) :=
  if n ≤ widthLimit then .ok (List.replicate n c) else .error .limitExceeded

/-- The marks of a span of `width` columns. Its ends are drawn as `\` and `/`, an end that goes
on beyond the line as `-`, and one column as `|`, or as `-` if either end goes on. -/
def marks (width : Nat) (cutLeft cutRight : Bool) : Except Fault (List Char) :=
  if width = 1 then .ok [if cutLeft || cutRight then '-' else '|']
  else do
    let middle ← repeated '-' (width - 2)
    return (if cutLeft then '-' else '\\') :: middle ++ [if cutRight then '-' else '/']

/-- The span drawn as an underline below a line that lies at `line` and reads `text`. An empty
span is drawn as `V`, and the result is empty if the span does not touch the line. The column
that stands for the terminator needs an offset of its own. -/
def underline (s line : Span) (text : List Char) : Except Fault (List Char) := do
  let lineStop := line.stop + 1
  if lineStop ≥ offsetLimit then throw .limitExceeded
  let column := Text.column text line.start
  if s.isEmpty then
    if s.start < line.start || s.start ≥ lineStop then return []
    return (← repeated ' ' (column s.start)) ++ ['V']
  if !(s.start < lineStop && line.start < s.stop) then return []
  let first := column (max s.start line.start)
  let last := max (column (min s.stop lineStop)) (first + 1)
  let indent ← repeated ' ' first
  return indent ++ (← marks (last - first) (s.start < line.start) (s.stop > lineStop))

end Span

end ParseTrail
