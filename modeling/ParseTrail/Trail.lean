import ParseTrail.Span

/-!
# Trails of attempts

A trail records every attempt of a parser to match: what it covered, how it is labelled, and
whether it failed. Attempts live in an arena and are named by their index. They form a tree below
attempt 0, the root, and an attempt is reachable if the root leads to it through child lists.

An attempt can be dissolved: its children take its place in its parent's list, and it stays in the
arena out of reach.
-/

namespace ParseTrail

/-- One attempt of a parser to match. -/
structure Attempt where
  /-- The input covered. -/
  span : Span
  /-- The label of the parser. -/
  label : String
  /-- Whether it failed. -/
  failed : Bool := false
  /-- The attempt it was made for; none for the root and for attempts out of reach. -/
  parent? : Option Nat := none
  /-- The attempts made for it, in order. -/
  children : List Nat := []
  /-- Whether it stops the dissolution of the attempts around another. -/
  anchor : Bool := false
  /-- Whether it is to be dissolved when it completes. -/
  dissolving : Bool := false
  deriving Repr, Inhabited

/-- A tree of attempts. -/
structure Trail where
  /-- The attempts, the root first. -/
  attempts : Array Attempt
  deriving Repr

namespace Trail

/-- The label of the root. -/
def rootLabel : String := "<root>"

/-- The trail at the start of a parse from an offset: the root alone. -/
def start (offset : Nat) : Trail :=
  ⟨#[{ span := Span.point offset, label := rootLabel, anchor := true }]⟩

/-- The number of attempts, those out of reach included. -/
def size (t : Trail) : Nat :=
  t.attempts.size

/-- The attempt with an index. -/
def get? (t : Trail) (id : Nat) : Option Attempt :=
  t.attempts[id]?

/-- The children of an attempt. -/
def children (t : Trail) (id : Nat) : List Nat :=
  ((t.get? id).map (·.children)).getD []

/-- The parent of an attempt. -/
def parent? (t : Trail) (id : Nat) : Option Nat :=
  (t.get? id).bind (·.parent?)

/-- Refuses indices that name no attempt. -/
def require (t : Trail) (ids : List Nat) : Except Fault Unit :=
  match ids.find? (t.size ≤ ·) with
  | some id => .error (.noSuchAttempt id)
  | none => .ok ()

/-- Changes one attempt. -/
def update (t : Trail) (id : Nat) (f : Attempt → Attempt) : Trail :=
  ⟨t.attempts.modify id f⟩

/-- Sets the parent of an attempt. -/
def setParent (t : Trail) (parent? : Option Nat) (id : Nat) : Trail :=
  t.update id fun a => { a with parent? }

/-- Sets the children of an attempt. -/
def setChildren (t : Trail) (id : Nat) (children : List Nat) : Trail :=
  t.update id fun a => { a with children }

/-- Sets the parent of several attempts. -/
def adopt (t : Trail) (parent? : Option Nat) (ids : List Nat) : Trail :=
  ids.foldl (fun t id => t.setParent parent? id) t

/-! ### Recording -/

/-- Opens an attempt below another, and gives its index. -/
def push (t : Trail) (parent offset : Nat) (label : String) (anchor : Bool) : Nat × Trail :=
  let id := t.size
  let attempt : Attempt := { span := Span.point offset, label, parent? := some parent, anchor }
  let t : Trail := ⟨t.attempts.push attempt⟩
  (id, t.setChildren parent (t.children parent ++ [id]))

/-- The furthest stop of some attempts, and of `stop`. -/
def furthestStop (t : Trail) (stop : Nat) (ids : List Nat) : Nat :=
  ids.foldl (fun n id => max n (((t.get? id).map (·.span.stop)).getD 0)) stop

/-- Closes an attempt that reached `stop`. A failed one covers what its children covered. -/
def close (t : Trail) (id stop : Nat) (failed : Bool) : Trail :=
  let reached := if failed then t.furthestStop stop (t.children id) else stop
  t.update id fun a => { a with span := Span.of a.span.start reached, failed }

/-- Drops the children of an attempt. -/
def clearChildren (t : Trail) (id : Nat) : Trail :=
  (t.adopt none (t.children id)).setChildren id []

/-- The chain of parents that starts with a given one, nearest first; at most `n` of them. -/
def chain (t : Trail) : Nat → Option Nat → List Nat
  | 0, _ => []
  | _ + 1, none => []
  | n + 1, some id => id :: t.chain n (t.parent? id)

/-- The attempts above another, nearest first. -/
def ancestors (t : Trail) (id : Nat) : List Nat :=
  t.chain t.size (t.parent? id)

/-- Whether an attempt is an anchor. -/
def isAnchor (t : Trail) (id : Nat) : Bool :=
  (t.get? id).any (·.anchor)

/-- Whether an attempt is to be dissolved when it completes. -/
def isDissolving (t : Trail) (id : Nat) : Bool :=
  (t.get? id).any (·.dissolving)

/-- Marks the attempts strictly between another and the nearest anchor above it, so that they are
dissolved when they complete. -/
def dissolveToAnchor (t : Trail) (id : Nat) : Trail :=
  ((t.ancestors id).takeWhile (!t.isAnchor ·)).foldl
    (fun t id => t.update id fun a => { a with dissolving := true }) t

/-- Dissolves an attempt: its children take its place. The root, and an attempt already out of
reach, stay as they are. -/
def dissolve (t : Trail) (id : Nat) : Trail :=
  match t.parent? id with
  | none => t
  | some parent =>
    let children := t.children id
    let t := (t.adopt (some parent) children).setChildren id []
    let t := t.setChildren parent
      ((t.children parent).flatMap fun c => if c = id then children else [c])
    t.setParent none id

end Trail

end ParseTrail
