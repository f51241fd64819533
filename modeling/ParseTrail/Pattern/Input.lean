import ParseTrail.Text.WhiteSpace

/-!
# Reading a pattern

Readers of parts of a pattern take characters from the front of what is left of it, or refuse it.
With the flag for spaced patterns, white space and comments between the parts are skipped.
-/

namespace ParseTrail.Pattern

/-- What is left of a pattern. -/
structure Input where
  /-- The text that is left. -/
  text : List Char
  /-- Whether white space and comments are skipped. -/
  spaced : Bool := false

/-- A reader of a part of a pattern, which may refuse it. -/
abbrev Scan := StateT Input Option

/-- Text without the white space and the comments that it begins with. A comment goes from a `#` to
the end of the line. -/
def withoutBlanks : (inComment : Bool) → List Char → List Char
  | _, [] => []
  | true, c :: cs => withoutBlanks (c != '\n') cs
  | false, c :: cs =>
    if Text.isWhiteSpace c then withoutBlanks false cs
    else if c == '#' then withoutBlanks true cs
    else c :: cs

namespace Scan

/-- Refuses the pattern. -/
def refuse {α : Type} : Scan α :=
  fun _ => none

/-- What there is, or else refuses the pattern. -/
def require {α : Type} : Option α → Scan α
  | some a => pure a
  | none => refuse

/-- The next character, which is not taken. -/
def peek? : Scan (Option Char) :=
  return (← get).text.head?

/-- The characters that are left. -/
def rest : Scan (List Char) :=
  return (← get).text

/-- Goes on with other characters. -/
def goOn (text : List Char) : Scan Unit :=
  modify fun input => { input with text }

/-- Leaves out `n` characters. -/
def drop (n : Nat) : Scan Unit :=
  modify fun input => { input with text := input.text.drop n }

/-- Skips white space and comments in a spaced pattern. -/
def skip : Scan Unit :=
  modify fun input =>
    if input.spaced then { input with text := withoutBlanks false input.text } else input

/-- Takes a character. -/
def take : Scan Char := do
  match (← get).text with
  | [] => refuse
  | c :: cs =>
    goOn cs
    return c

/-- Takes a character and skips what need not count after it. -/
def next : Scan Char := do
  let c ← take
  skip
  return c

/-- Takes a given character. -/
def expect (c : Char) : Scan Unit := do
  if (← take) == c then return else refuse

/-- Takes characters, and skips what need not count after each, as long as they pass a test. -/
def takeWhile (test : Char → Bool) : Scan (List Char) := do
  let rec go : Nat → Scan (List Char)
    | 0 => return []
    | n + 1 => do
      match ← peek? with
      | some c => if test c then return (← next) :: (← go n) else return []
      | none => return []
  go (← rest).length

end Scan

end ParseTrail.Pattern
