import ParseTrail.Pattern.Escape

/-!
# Sets in brackets

What stands between brackets: characters, ranges, classes and further sets in brackets, put
together by union and by operations between two of each.
-/

namespace ParseTrail.Pattern

open Scan

/-! ### Named classes -/

/-- The ranges of a class of ASCII characters, by the name that stands between `[:` and `:]`. -/
def asciiClass? : String → Option (List (Nat × Nat))
  | "alnum" => some [(0x30, 0x39), (0x41, 0x5a), (0x61, 0x7a)]
  | "alpha" => some [(0x41, 0x5a), (0x61, 0x7a)]
  | "ascii" => some [(0, 0x7f)]
  | "blank" => some [(0x9, 0x9), (0x20, 0x20)]
  | "cntrl" => some [(0, 0x1f), (0x7f, 0x7f)]
  | "digit" => some [(0x30, 0x39)]
  | "graph" => some [(0x21, 0x7e)]
  | "lower" => some [(0x61, 0x7a)]
  | "print" => some [(0x20, 0x7e)]
  | "punct" => some [(0x21, 0x2f), (0x3a, 0x40), (0x5b, 0x60), (0x7b, 0x7e)]
  | "space" => some [(0x9, 0xd), (0x20, 0x20)]
  | "upper" => some [(0x41, 0x5a)]
  | "word" => some [(0x30, 0x39), (0x41, 0x5a), (0x5f, 0x5f), (0x61, 0x7a)]
  | "xdigit" => some [(0x30, 0x39), (0x41, 0x46), (0x61, 0x66)]
  | _ => none

/-- A named class such as `[:alpha:]` or `[:^alpha:]` at the front of a text, and what follows. -/
def namedClass? (cs : List Char) : Option (SetTree × List Char) := do
  let (negated, cs) ← match cs with
    | '[' :: ':' :: '^' :: cs => some (true, cs)
    | '[' :: ':' :: cs => some (false, cs)
    | _ => none
  match cs.dropWhile (· != ':') with
  | ':' :: ']' :: rest => do
    let ranges ← asciiClass? (String.ofList (cs.takeWhile (· != ':')))
    return (.named ⟨ranges⟩ negated, rest)
  | _ => none

/-! ### Items -/

/-- One item of a set: a character or a class. -/
def setItem : Scan (Char ⊕ SetTree) := do
  match ← take with
  | '\\' =>
    match ← escape with
    | .char c _ => return .inl c
    | .set s => return .inr s
    | .anchor _ => refuse
  | c => return .inl c

/-- The set of an item that is no end of a range. -/
def itemSet : Char ⊕ SetTree → SetTree
  | .inl c => .single c
  | .inr s => s

/-- A range, or an item on its own. A hyphen makes a range unless the set ends after it or another
hyphen follows. -/
def setRange : Scan SetTree := do
  let first ← setItem
  skip
  if (← peek?) != some '-' then return itemSet first
  let start ← get
  let _ ← next
  match ← peek? with
  | none => refuse
  | some c =>
    if c == ']' || c == '-' then
      set start
      return itemSet first
    else
      match first, ← setItem with
      | .inl first, .inl last => if first ≤ last then return .range first last else refuse
      | _, _ => refuse

/-- The signs that a set begins with and that stand for themselves, last first: hyphens, or else a
closing bracket. -/
def opening : Scan (List SetTree) := do
  let hyphens ← takeWhile (· == '-')
  if hyphens.isEmpty && (← peek?) == some ']' then return [.single (← next)]
  else return hyphens.map .single

/-- The operation whose sign is written twice. -/
def SetOperation.ofSign? : Char → Option SetOperation
  | '&' => some .intersection
  | '-' => some .difference
  | '~' => some .symmetricDifference
  | _ => none

/-! ### Sets -/

mutual

/-- A set at its opening bracket, at most `n` items long and deep. -/
def bracket : Nat → Scan SetTree
  | 0 => refuse
  | n + 1 => do
    let _ ← next
    let negated := (← peek?) == some '^'
    if negated then
      let _ ← next
    let items ← opening
    return .bracket negated (← bracketRest n none items)

/-- The rest of a set. The items since the last operation are given last first; before them stand
the operation and what it takes on its left. -/
def bracketRest : Nat → Option (SetOperation × SetTree) → List SetTree → Scan SetTree
  | 0, _, _ => refuse
  | n + 1, before?, items => do
    skip
    let whole : SetTree := match before? with
      | some (op, left) => .operation op left (.ofItems items)
      | none => .ofItems items
    let text ← rest
    match text with
    | [] => refuse
    | ']' :: _ =>
      drop 1
      return whole
    | '[' :: _ =>
      match namedClass? text with
      | some (s, after) =>
        goOn after
        bracketRest n before? (s :: items)
      | none =>
        let s ← bracket n
        bracketRest n before? (s :: items)
    | c :: d :: _ =>
      match SetOperation.ofSign? c with
      | some op =>
        if c == d then
          drop 2
          bracketRest n (some (op, whole)) []
        else bracketRest n before? ((← setRange) :: items)
      | none => bracketRest n before? ((← setRange) :: items)
    | _ => bracketRest n before? ((← setRange) :: items)

end

end ParseTrail.Pattern
