import ParseTrail.Numeral
import ParseTrail.Pattern.Bracket

/-!
# The grammar of patterns

Patterns are written as literals, the dot, the places `^` and `$`, sets in brackets, escapes after
a backslash, groups, flags, alternatives after `|`, and repetitions by `?`, `*`, `+` and counts in
braces. A text that is no pattern is refused.
-/

namespace ParseTrail.Pattern

open Scan

/-! ### Repetitions -/

/-- A count, with white space around it. -/
def count : Scan Nat := do
  goOn ((← rest).dropWhile Text.isWhiteSpace)
  let digits ← takeWhile Char.isDigit
  let _ ← takeWhile Text.isWhiteSpace
  let n := Numeral.value digits
  if digits.isEmpty || countLimit ≤ n then refuse else return n

/-- The bounds of a counted repetition after its opening brace. -/
def bounds : Scan (Nat × Option Nat) := do
  let least ← count
  match ← peek? with
  | some ',' =>
    let _ ← next
    if (← peek?) == some '\x7d' then return (least, none)
    let most ← count
    if least ≤ most then return (least, some most) else refuse
  | _ => return (least, some least)

/-- Takes the question mark that makes a repetition short. -/
def skipShort : Scan Unit := do
  if (← peek?) == some '?' then drop 1

/-- The least and the largest number of times that the sign of a repetition asks for, which stands
at the front. -/
def repetitionSign? : Scan (Option (Nat × Option Nat)) := do
  let uncounted (least : Nat) (most? : Option Nat) : Scan (Option (Nat × Option Nat)) := do
    drop 1
    skipShort
    return some (least, most?)
  match ← peek? with
  | some '?' => uncounted 0 (some 1)
  | some '*' => uncounted 0 none
  | some '+' => uncounted 1 none
  | some '\x7b' =>
    let _ ← next
    let times ← bounds
    expect '\x7d'
    skip
    skipShort
    return some times
  | _ => return none

/-! ### Groups -/

/-- Whether a character may stand in the name of a group, as its first character or later. -/
def isNameCharacter (first : Bool) (c : Char) : Bool :=
  if first then c == '_' || Text.isAlphabetic c
  else c == '_' || c == '.' || c == '[' || c == ']' || Text.isAlphanumeric c

/-- The name of a group, with the sign after it. -/
def groupName : Scan String := do
  let text ← rest
  let name := text.takeWhile (· != '>')
  goOn (text.drop name.length)
  expect '>'
  match name with
  | c :: cs =>
    if isNameCharacter true c && cs.all (isNameCharacter false) then return String.ofList name
    else refuse
  | [] => refuse

/-- The flags that letters switch, on before a hyphen and off after it. No sign may come twice and
the hyphen may not come last. -/
def switchesOf? (letters : List Char) : Option Switches := do
  let on := letters.takeWhile (· != '-')
  let off := letters.drop (on.length + 1)
  let flags ← (on ++ off).mapM Flag.ofLetter?
  if !decide letters.Nodup || letters.getLast? = some '-' then none
  else some (flags.zip (on.map (fun _ => true) ++ off.map fun _ => false))

/-- What follows the opening parenthesis of a group. -/
inductive GroupOpening where
  /-- The group has parts. -/
  | parts (kind : GroupKind)
  /-- There is no group, but flags are switched. -/
  | switches (switches : Switches)

/-- The rest of the opening of a group after its question mark: flags and a sign. -/
def flaggedOpening : Scan GroupOpening := do
  let text ← rest
  let letters := text.takeWhile fun c => c != ':' && c != ')'
  goOn (text.drop letters.length)
  let switches ← require (switchesOf? letters)
  if (← take) == ':' then return .parts (.flagged switches)
  else if letters.isEmpty then refuse
  else return .switches switches

/-- The opening of a group after its parenthesis. Conditions on what comes before or after a place
are refused. -/
def groupOpening : Scan GroupOpening := do
  skip
  match ← rest with
  | '?' :: 'P' :: '<' :: _ =>
    drop 3
    return .parts (.captured (some (← groupName)))
  | '?' :: '<' :: c :: _ =>
    if c == '=' || c == '!' then refuse
    else
      drop 2
      return .parts (.captured (some (← groupName)))
  | '?' :: _ =>
    drop 1
    flaggedOpening
  | _ => return .parts (.captured none)

/-- Switches whether white space and comments are skipped. -/
def setSpaced (spaced : Bool) : Scan Unit :=
  modify fun input => { input with spaced }

/-! ### Whole patterns -/

/-- The pattern that an escape stands for. -/
def Escape.tree : Escape → Tree
  | char c byte => .char c byte
  | set s => .set s
  | anchor a => .anchor a

/-- Whether a pattern can be repeated. Flags cannot. -/
def Tree.isRepeatable : Tree → Bool
  | nothing | switches _ => false
  | _ => true

mutual

/-- Alternatives up to a closing parenthesis or the end. -/
def alternatives : Nat → Scan Tree
  | 0 => refuse
  | n + 1 => do
    let first ← sequence n []
    if (← peek?) == some '|' then
      drop 1
      return .either first (← alternatives n)
    else return first

/-- A sequence up to a bar, a closing parenthesis or the end, after given items, last first. -/
def sequence : Nat → List Tree → Scan Tree
  | 0, _ => refuse
  | n + 1, items => do
    skip
    match ← peek? with
    | none | some '|' | some ')' => return .ofItems items
    | some '(' =>
      drop 1
      let t ← group n
      sequence n (t :: items)
    | some '[' =>
      let s ← bracket n
      sequence n (.set s :: items)
    | some c =>
      match ← repetitionSign? with
      | some (least, most?) =>
        match items with
        | t :: earlier =>
          if t.isRepeatable then sequence n (.repetition least most? t :: earlier) else refuse
        | [] => refuse
      | none =>
        drop 1
        let t ← match c with
          | '\\' => Escape.tree <$> escape
          | '.' => pure .dot
          | '^' => pure (.anchor .start)
          | '$' => pure (.anchor .stop)
          | c => pure (.char c false)
        sequence n (t :: items)

/-- A group after its opening parenthesis. Whether white space counts is restored after it. -/
def group : Nat → Scan Tree
  | 0 => refuse
  | n + 1 => do
    let spaced := (← get).spaced
    match ← groupOpening with
    | .switches switches =>
      setSpaced (switches.apply .spaced spaced)
      return .switches switches
    | .parts kind =>
      match kind with
      | .flagged switches => setSpaced (switches.apply .spaced spaced)
      | .captured _ => pure ()
      let t ← alternatives n
      setSpaced spaced
      expect ')'
      return .group kind t

end

/-- The written pattern that a text spells. -/
def Tree.read? (s : String) : Option Tree :=
  match (alternatives (4 * s.length + 8)).run { text := s.toList } with
  | some (t, rest) => if rest.text.isEmpty && t.isAllowed then some t else none
  | none => none

end ParseTrail.Pattern
