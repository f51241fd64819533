import ParseTrail.Text.CodeSet

/-!
# Byte ranges of code point ranges

The UTF-8 sequences of a range of code points form few boxes: in each box, every byte of the
sequence ranges over an interval of its own. The boxes stand in the order of the code points.
-/

namespace ParseTrail.Text.Utf8

/-- The first and the last value of a byte. -/
abbrev ByteRange := Nat × Nat

/-- What each byte of a sequence ranges over. -/
abbrev Box := List ByteRange

/-- The boxes of a range of numbers written as one byte counted from `base` and `n` continuation
bytes. -/
def boxesFrom (base : Nat) : Nat → Nat → Nat → List Box
  | 0, first, last => [[(base + first, base + last)]]
  | n + 1, first, last =>
    let unit := 64 ^ (n + 1)
    let low := first / unit
    let high := last / unit
    let under (lead : Nat) (a b : Nat) : List Box :=
      (boxesFrom 0x80 n a b).map ((base + lead, base + lead) :: ·)
    if low = high then under low (first % unit) (last % unit)
    else
      let fullLow := if first % unit = 0 then low else low + 1
      let fullHigh := if last % unit = unit - 1 then high + 1 else high
      (if fullLow = low then [] else under low (first % unit) (unit - 1))
        ++ (if fullLow < fullHigh then
            (boxesFrom 0x80 n 0 (unit - 1)).map ((base + fullLow, base + fullHigh - 1) :: ·)
          else [])
        ++ (if fullHigh = high then under high 0 (last % unit) else [])

/-- The boxes of the part of a range that lies between two code points, whose sequences all have
`n` continuation bytes after a first byte counted from `base`. -/
def boxesWithin (lower upper base n : Nat) (r : Nat × Nat) : List Box :=
  if max lower r.1 ≤ min upper r.2 then boxesFrom base n (max lower r.1) (min upper r.2) else []

/-- The boxes of a range of code points. Surrogates have no sequences. -/
def boxesOfRange (r : Nat × Nat) : List Box :=
  boxesWithin 0 0x7f 0 0 r ++ boxesWithin 0x80 0x7ff 0xc0 1 r ++ boxesWithin 0x800 0xd7ff 0xe0 2 r
    ++ boxesWithin 0xe000 0xffff 0xe0 2 r ++ boxesWithin 0x10000 lastCode 0xf0 3 r

/-- The boxes of a set of code points. -/
def boxes (s : CodeSet) : List Box :=
  s.ranges.flatMap boxesOfRange

end ParseTrail.Text.Utf8
