/-!
# Faults

A fault is a use of the library that has no answer: going back to text that is gone, cutting a
text inside a character, naming a node that does not exist, running a rule that has no definition,
or going past a limit of size. It ends the whole computation, unlike a failed parse.
-/

namespace ParseTrail

/-- Why a computation has no answer. -/
inductive Fault where
  /-- Characters were to be unread before the oldest one kept, at `origin`. -/
  | restorePastStart (origin : Nat)
  /-- The cursor was to move to `offset`, outside the kept text from `first` to `last`. -/
  | restoreOutside (offset first last : Nat)
  /-- A parse was to go back to `offset`, where it had begun, outside the kept text from `first` to
  `last`. -/
  | returnOutside (offset first last : Nat)
  /-- A text was to be cut inside a character. -/
  | insideCharacter
  /-- A node was named that the trail does not have. -/
  | noSuchAttempt (index : Nat)
  /-- A rule ran whose definition no longer exists. -/
  | ruleDropped
  /-- A rule ran while its definition was still being made. -/
  | rulePending
  /-- A count, a drawing or a list went past its limit. -/
  | limitExceeded
  deriving DecidableEq, Repr

namespace Fault

/-- The wording of those faults that have one. -/
def message? : Fault → Option String
  | restorePastStart origin =>
    some s!"restore past the start of the backtracking buffer (offset {origin})"
  | restoreOutside offset first last | returnOutside offset first last =>
    some s!"restore to offset {offset} outside buffered range {first}..{last}"
  | insideCharacter => none
  | noSuchAttempt _ => none
  | ruleDropped => some "recursive parser handle used after its definition was dropped"
  | rulePending => some "recursive parser run before its definition completed"
  | limitExceeded => none

end Fault

end ParseTrail
