import ParseTrail.Session

/-!
# Recording attempts

How actions leave their attempts on the trail.
-/

namespace ParseTrail.Action

variable {β : Type}

/-- Fails recoverably. -/
def expected (offset : Nat) (label : String) : Action β :=
  throw (.expected { offset, label })

/-- Fails recoverably, telling what was found. -/
def expectedFound (offset : Nat) (label : String) (found : List Char) : Action β :=
  throw (.expected { offset, label, found? := some (String.ofList found) })

/-- Records a failed attempt from an offset to the cursor, and gives its failure. -/
def reject (offset : Nat) (label : String) : Action Failure := do
  let s ← get
  let (id, trail) := s.trail.push s.current offset label false
  set { s with trail := trail.close id s.cursor.position true }
  return .expected { offset, label }

/-- Opens an attempt at the cursor, unless it nests too deep, and gives its index. -/
def enter (label : String) (shape : Shape) : Action Nat := do
  let s ← get
  if s.maxDepth ≠ 0 ∧ s.depth ≥ s.maxDepth then
    throw (.tooDeep (s.depth + 1) s.maxDepth)
  let (id, trail) := s.trail.push s.current s.cursor.position label shape.anchor
  set { s with trail, current := id, depth := s.depth + 1 }
  return id

/-- Closes an attempt and lets it appear as its shape says. -/
def leave (id stop : Nat) (failed : Bool) (shape : Shape) : Action Unit :=
  modify fun s =>
    let trail := s.trail.close id stop failed
    let trail := if shape.leaf then trail.clearChildren id else trail
    let trail := if shape.dissolveOuter then trail.dissolveToAnchor id else trail
    let current := (trail.parent? id).getD 0
    let trail := if shape.dissolve || trail.isDissolving id then trail.dissolve id else trail
    { s with trail, current, depth := s.depth - 1 }

/-- Runs an action as an attempt. If it fails, the cursor returns to where it was. -/
def recorded (label : String) (shape : Shape) (x : Action β) : Action β := do
  let start ← position
  let id ← enter label shape
  let result ← attempt x
  let stop ← position
  match result with
  | .ok b =>
    leave id stop false shape
    return b
  | .error f =>
    returnTo start
    leave id stop true shape
    throw f

end ParseTrail.Action
