import ParseTrail.Cursor

/-!
# Moving a cursor

Going back by characters or to an offset, and seeking in both directions. Going back stays within
the text kept; seeking forward reads and keeps what it passes.
-/

namespace ParseTrail

/-- Where to move a cursor. -/
inductive SeekTarget where
  /-- To an offset. -/
  | start (offset : Nat)
  /-- To a distance from the cursor. -/
  | current (distance : Int)
  /-- To a distance from the end of input. -/
  | finish (distance : Int)
  deriving DecidableEq, Repr

namespace Cursor

/-- Unreads `n` characters. -/
def restore : Nat → Cursor → Except Fault Cursor
  | 0, c => .ok c
  | n + 1, c =>
    if c.index = 0 then .error (.restorePastStart c.origin)
    else restore n { c with index := Text.floorBoundary c.text (c.index - 1) }

/-- Moves to an offset within the text kept; anywhere else is the fault `outside`. -/
def moveTo (outside : Nat → Nat → Nat → Fault) (offset : Nat) (c : Cursor) :
    Except Fault Cursor :=
  if c.origin ≤ offset ∧ offset - c.origin ≤ c.buffered then
    .ok { c with index := offset - c.origin }
  else .error (outside offset c.origin (c.origin + c.buffered))

/-- Moves to an offset within the text kept, as asked from outside. -/
def restoreTo : Nat → Cursor → Except Fault Cursor :=
  moveTo .restoreOutside

/-- Goes back to the offset where a part of a parse began. -/
def returnTo : Nat → Cursor → Except Fault Cursor :=
  moveTo .returnOutside

/-- The offset at a distance from another. -/
def offsetBy (base : Nat) (distance : Int) : Except SourceError Nat :=
  let target := (base : Int) + distance
  if 0 ≤ target ∧ target < offsetLimit then .ok target.toNat
  else .error ⟨.invalidInput, "seek to a negative offset"⟩

/-- Moves over characters until an offset is reached or passed, or input ends; at most `n`. -/
def skipTo (offset : Nat) : Nat → Cursor → Except SourceError Unit × Cursor
  | 0, c => (.ok (), c)
  | n + 1, c =>
    if c.position < offset then
      match c.step with
      | (.ok true, d) => skipTo offset n d
      | (.ok false, d) => (.ok (), d)
      | (.error e, d) => (.error e, d)
    else (.ok (), c)

/-- Moves to an offset. Text on the way there is read and kept, and input may end before it. -/
def seekTo (offset : Nat) (c : Cursor) : Except SourceError Nat × Cursor :=
  if offset < c.origin then
    (.error ⟨.invalidInput, s!"cannot seek to {offset}: oldest buffered offset is {c.origin}"⟩, c)
  else if offset - c.origin ≤ c.buffered then
    if Text.isBoundary c.text (offset - c.origin) then
      (.ok offset, { c with index := offset - c.origin })
    else (.error ⟨.invalidInput, s!"offset {offset} is inside a character"⟩, c)
  else
    match skipTo offset (offset - c.origin - c.buffered) { c with index := c.buffered } with
    | (.ok (), d) => (.ok d.position, d)
    | (.error e, d) => (.error e, d)

/-- Moves to a target and gives the new offset. A target counted from the end of input first
reads all of it. -/
def seek (target : SeekTarget) (c : Cursor) : Except SourceError Nat × Cursor :=
  match target with
  | .start offset => c.seekTo offset
  | .current distance =>
    match offsetBy c.position distance with
    | .ok offset => c.seekTo offset
    | .error e => (.error e, c)
  | .finish distance =>
    match c.fillUntil (fun _ => false) c.pending with
    | (.error e, d) => (.error e, d)
    | (.ok (), d) =>
      match offsetBy (d.origin + d.buffered) distance with
      | .ok offset => d.seekTo offset
      | .error e => (.error e, d)

end Cursor

end ParseTrail
