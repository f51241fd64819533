/-!
# Configuration of a parse
-/

namespace ParseTrail

/-- How a parse is run. -/
structure Config where
  /-- How deep parsers may nest; 0 sets no limit. -/
  maxDepth : Nat := 0
  /-- How many bytes to ask a source for at a time. All answers are the same for every number up to
  `bufferLimit`; to ask for more is a fault. -/
  readCapacity : Nat := 8192
  deriving DecidableEq, Repr

end ParseTrail
