import ParseTrail.Trail

/-!
# Drawing a trail

A trail as text: one attempt a line, indented below its parent.
-/

namespace ParseTrail.Trail

/-- The word for how an attempt ended. -/
def outcomeWord (failed : Bool) : String :=
  if failed then "failure" else "success"

/-- The lines of a drawing of an attempt and those below it down to `n` levels. -/
def drawFrom (t : Trail) : Nat → String → Bool → Nat → List String
  | 0, _, _, _ => []
  | n + 1, indent, last, id =>
    match t.get? id with
    | none => []
    | some a =>
      let line := indent ++ (if last then "`- " else "|- ") ++ a.label ++ " " ++ a.span.render
        ++ " " ++ outcomeWord a.failed ++ "\n"
      let below := indent ++ if last then "   " else "|  "
      line :: (a.children.dropLast.flatMap (t.drawFrom n below false)
        ++ a.children.getLast?.toList.flatMap (t.drawFrom n below true))

/-- A drawing of the attempts within reach, one a line. -/
def draw (t : Trail) : String :=
  String.join (t.drawFrom t.size "" true 0)

end ParseTrail.Trail
