import ParseTrail.Cursor.Request

/-!
# Computations with a cursor

A computation with a cursor gives its answer beside the cursor as it stands afterwards. It may
instead halt, which ends everything around it too.
-/

namespace ParseTrail

/-- Why a computation ended without an answer. -/
inductive Halt where
  /-- There is none. -/
  | fault (cause : Fault)
  /-- It took more steps than it was given. -/
  | outOfFuel
  deriving DecidableEq, Repr

/-- The answer of an operation that may have a fault. -/
def Halt.check {β : Type} : Except Fault β → Except Halt β :=
  Except.mapError .fault

/-- A computation with a cursor. -/
abbrev Reading := StateT Cursor (Except Halt)

namespace Reading

/-- Performs an operation on the cursor. -/
def ask (request : Cursor.Request) : Reading request.Reply :=
  fun c => Halt.check (c.perform request)

/-- The offset of the cursor. -/
def position : Reading Nat :=
  return (← get).position

/-- Goes back to the offset where a part of a parse began. -/
def returnTo (offset : Nat) : Reading Unit :=
  fun c => Halt.check ((c.returnTo offset).map fun d => ((), d))

end Reading

end ParseTrail
