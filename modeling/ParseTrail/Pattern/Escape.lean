import ParseTrail.Pattern.Input
import ParseTrail.Pattern.Property
import ParseTrail.Pattern.Tree
import ParseTrail.Text.Hex

/-!
# Escapes in patterns

What stands after a backslash: a character that would otherwise have a meaning of its own, a
character given by its number, a class, a property, or a condition on a place.
-/

namespace ParseTrail.Pattern

open Scan

/-- What an escape stands for. -/
inductive Escape where
  /-- A character; `byte` says that it is given as the number of a byte. -/
  | char (c : Char) (byte : Bool)
  /-- A set. -/
  | set (s : SetTree)
  /-- A condition on the place. -/
  | anchor (a : Anchor)

/-! ### Characters -/

/-- The character whose code point has the given hexadecimal digits. -/
def charOfHex? (digits : List Char) : Option Char := do
  if digits.isEmpty then none
  let code ← digits.foldlM (fun n c => (Text.hexValue? c).map (n * 16 + ·)) 0
  if code.isValidChar then some (Char.ofNat code) else none

/-- A character given by its code point: in braces, or by exactly `n` digits. Two digits give the
number of a byte. -/
def hexEscape (n : Nat) : Scan Escape := do
  skip
  match ← peek? with
  | some '\x7b' =>
    let _ ← next
    let digits ← takeWhile (· != '\x7d')
    expect '\x7d'
    skip
    return .char (← require (charOfHex? digits)) false
  | _ =>
    let digits ← (List.range n).mapM fun _ => next
    return .char (← require (charOfHex? digits)) (n == 2)

/-- Whether a character stands for itself after a backslash: it is ASCII, but no letter, no digit
and no angle bracket. -/
def standsForItself (c : Char) : Bool :=
  c.toNat < 0x80 && !c.isAlphanum && c != '<' && c != '>'

/-! ### Properties -/

/-- The characters with a property, which one character names or a text in braces. -/
def propertyEscape (negated : Bool) : Scan Escape := do
  skip
  match ← peek? with
  | some '\x7b' =>
    let _ ← next
    let text ← takeWhile (· != '\x7d')
    expect '\x7d'
    let (codes, others) ← require (describedCodes? text)
    return .set (.property codes (negated != others))
  | some '\\' => refuse
  | _ =>
    let c ← next
    return .set (.property (← require (propertyCodes? [c])) negated)

/-! ### Edges of words -/

/-- Whether a character may stand in the name of an edge. -/
def isEdgeLetter (c : Char) : Bool :=
  c.isAlpha || c == '-'

/-- The edge with a name. -/
def WordEdge.ofName? : String → Option WordEdge
  | "start" => some .start
  | "end" => some .stop
  | "start-half" => some .openBefore
  | "end-half" => some .openAfter
  | _ => none

/-- An edge of a word, which has a name in braces or else is any. Braces in which no name begins
belong to a repetition. -/
def wordEdge : Scan WordEdge := do
  let start ← get
  if (← peek?) != some '\x7b' then return .boundary
  let _ ← next
  match ← peek? with
  | none => refuse
  | some c =>
    if isEdgeLetter c then
      let name ← takeWhile isEdgeLetter
      expect '\x7d'
      require (WordEdge.ofName? (String.ofList name))
    else
      set start
      return .boundary

/-! ### All escapes -/

/-- The escape that follows a backslash. -/
def escape : Scan Escape := do
  match ← take with
  | 'x' => hexEscape 2
  | 'u' => hexEscape 4
  | 'U' => hexEscape 8
  | 'p' => propertyEscape false
  | 'P' => propertyEscape true
  | 'd' => return .set (.shorthand .digit false)
  | 'D' => return .set (.shorthand .digit true)
  | 's' => return .set (.shorthand .space false)
  | 'S' => return .set (.shorthand .space true)
  | 'w' => return .set (.shorthand .word false)
  | 'W' => return .set (.shorthand .word true)
  | 'a' => return .char '\x07' false
  | 'f' => return .char '\x0c' false
  | 't' => return .char '\t' false
  | 'n' => return .char '\n' false
  | 'r' => return .char '\r' false
  | 'v' => return .char '\x0b' false
  | 'A' => return .anchor .textStart
  | 'z' => return .anchor .textEnd
  | 'b' => return .anchor (.word (← wordEdge))
  | 'B' => return .anchor (.word .noBoundary)
  | '<' => return .anchor (.word .start)
  | '>' => return .anchor (.word .stop)
  | c => if standsForItself c then return .char c false else refuse

end ParseTrail.Pattern
