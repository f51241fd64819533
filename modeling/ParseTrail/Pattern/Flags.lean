import ParseTrail.Text.CaseFold

/-!
# Flags of patterns

Flags change what the rest of a group means. They are switched on and off by letters.
-/

namespace ParseTrail.Pattern

/-- What a flag governs. -/
inductive Flag where
  /-- Whether case is ignored. -/
  | caseless
  /-- Whether `^` and `$` stand for the ends of lines. -/
  | lines
  /-- Whether the dot includes the ends of lines. -/
  | dotAll
  /-- Whether repetitions are short by themselves. -/
  | short
  /-- Whether classes include the characters of all scripts. -/
  | scripts
  /-- Whether a carriage return ends a line. -/
  | returns
  /-- Whether white space and comments in the pattern are left out. -/
  | spaced
  deriving DecidableEq, Repr

/-- The flag with a letter. -/
def Flag.ofLetter? : Char → Option Flag
  | 'i' => some .caseless
  | 'm' => some .lines
  | 's' => some .dotAll
  | 'U' => some .short
  | 'u' => some .scripts
  | 'R' => some .returns
  | 'x' => some .spaced
  | _ => none

/-- Flags to switch, and whether on or off. -/
abbrev Switches := List (Flag × Bool)

/-- Whether a flag is on after some are switched. -/
def Switches.apply (switches : Switches) (flag : Flag) (before : Bool) : Bool :=
  (switches.lookup flag).getD before

/-- The flags that bear on what a pattern means. -/
structure Flags where
  /-- Whether case is ignored. -/
  caseless : Bool := false
  /-- Whether `^` and `$` stand for the ends of lines. -/
  lines : Bool := false
  /-- Whether the dot includes the ends of lines. -/
  dotAll : Bool := false
  /-- Whether classes include the characters of all scripts. -/
  scripts : Bool := true
  /-- Whether a carriage return ends a line. -/
  returns : Bool := false
  deriving DecidableEq, Repr

namespace Flags

/-- The flags after some are switched. -/
def switch (flags : Flags) (switches : Switches) : Flags where
  caseless := switches.apply .caseless flags.caseless
  lines := switches.apply .lines flags.lines
  dotAll := switches.apply .dotAll flags.dotAll
  scripts := switches.apply .scripts flags.scripts
  returns := switches.apply .returns flags.returns

/-- A set of characters with those that differ in case alone, if case is ignored. -/
def fold (flags : Flags) (s : Text.CodeSet) : Text.CodeSet :=
  if !flags.caseless then s else if flags.scripts then s.foldCase else s.foldAsciiCase

/-- What is not in a set, if that is what is meant. Only with the characters of all scripts can a
set be negated, since what is left out of it has more than ASCII characters. -/
def negate? (flags : Flags) (negated : Bool) (s : Text.CodeSet) : Option Text.CodeSet :=
  if !negated then some s else if flags.scripts then some s.complement else none

end Flags

end ParseTrail.Pattern
