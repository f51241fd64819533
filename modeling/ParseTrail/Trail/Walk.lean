import ParseTrail.Trail

/-!
# Walking a trail

The attempts within reach of the root, parents first or children first, and those that start
furthest. A walk goes down at most as many levels as there are attempts, which is all of them, as
every attempt is younger than its parent.
-/

namespace ParseTrail.Trail

/-- The number of attempts above another. -/
def depth (t : Trail) (id : Nat) : Nat :=
  (t.ancestors id).length

/-- An attempt and those below it down to `n` levels, parents first. -/
def preOrderFrom (t : Trail) : Nat → Nat → List Nat
  | 0, _ => []
  | n + 1, id => id :: (t.children id).flatMap (t.preOrderFrom n)

/-- The attempts within reach, parents first. -/
def preOrder (t : Trail) : List Nat :=
  t.preOrderFrom t.size 0

/-- An attempt and those below it down to `n` levels, children first. -/
def postOrderFrom (t : Trail) : Nat → Nat → List Nat
  | 0, _ => []
  | n + 1, id => (t.children id).flatMap (t.postOrderFrom n) ++ [id]

/-- The attempts within reach except the root, children first. -/
def postOrder (t : Trail) : List Nat :=
  (t.postOrderFrom t.size 0).dropLast

/-- Where an attempt starts. -/
def startOf (t : Trail) (id : Nat) : Nat :=
  ((t.get? id).map (·.span.start)).getD 0

/-- The furthest start among the attempts within reach. -/
def furthestStart (t : Trail) : Nat :=
  (t.preOrder.map t.startOf).foldl max 0

/-- The attempts within reach, except the root, that start furthest. -/
def atFurthest (t : Trail) : List Nat :=
  let furthest := t.furthestStart
  t.preOrder.tail.filter fun id => t.startOf id == furthest

end ParseTrail.Trail
