/-!
# Byte offsets into text

A text is a list of characters, and a place in it is the number of UTF-8 bytes before it. An
offset that falls inside a character is a number like any other, so every operation here says
what it does there: cutting the text is refused, rounding goes back to the boundary before it,
and stepping over it takes one byte.
-/

namespace ParseTrail.Text

/-- The number of bytes a text takes in UTF-8. -/
def byteLength : List Char → Nat
  | [] => 0
  | c :: cs => c.utf8Size + byteLength cs

@[simp]
theorem byteLength_nil : byteLength [] = 0 := rfl

@[simp]
theorem byteLength_cons (c : Char) (cs : List Char) :
    byteLength (c :: cs) = c.utf8Size + byteLength cs := rfl

@[simp]
theorem byteLength_append (xs ys : List Char) :
    byteLength (xs ++ ys) = byteLength xs + byteLength ys := by
  induction xs with
  | nil => simp
  | cons c cs ih => simp [ih, Nat.add_assoc]

/-- The text after its first `n` bytes, if they end at a character boundary of the text. -/
def dropBytes? : Nat → List Char → Option (List Char)
  | 0, cs => some cs
  | _ + 1, [] => none
  | n + 1, c :: cs =>
    if c.utf8Size ≤ n + 1 then dropBytes? (n + 1 - c.utf8Size) cs else none

/-- The first `n` bytes of the text, if they end at a character boundary of the text. -/
def takeBytes? : Nat → List Char → Option (List Char)
  | 0, _ => some []
  | _ + 1, [] => none
  | n + 1, c :: cs =>
    if c.utf8Size ≤ n + 1 then (takeBytes? (n + 1 - c.utf8Size) cs).map (c :: ·) else none

/-- The text between two offsets, if both are character boundaries and stand in order. -/
def slice? (cs : List Char) (first last : Nat) : Option (List Char) :=
  if first ≤ last then (dropBytes? first cs).bind (takeBytes? (last - first)) else none

/-- Whether `n` is a character boundary of the text, its two ends included. -/
def isBoundary (cs : List Char) (n : Nat) : Bool :=
  (dropBytes? n cs).isSome

/-- The last character boundary at or before `n`; the end of the text if `n` lies past it. -/
def floorBoundary : List Char → Nat → Nat
  | [], _ => 0
  | c :: cs, n => if n < c.utf8Size then 0 else c.utf8Size + floorBoundary cs (n - c.utf8Size)

/-- How far a reader standing at offset `n` moves over what it finds there: a whole character
at a boundary, one byte inside a character, nothing at the end of the text. -/
def stepLength : List Char → Nat → Nat
  | [], _ => 0
  | c :: cs, n =>
    if n = 0 then c.utf8Size
    else if n < c.utf8Size then 1
    else stepLength cs (n - c.utf8Size)

/-- The characters that start before offset `n`. -/
def startingBefore : List Char → Nat → List Char
  | [], _ => []
  | c :: cs, n => if n = 0 then [] else c :: startingBefore cs (n - c.utf8Size)

end ParseTrail.Text
