/-!
# UTF-8 sequences

The shape of UTF-8: how long a sequence its first byte announces, which bytes continue one, and
which sequences encode a character. Overlong forms, surrogates and numbers past the last code
point encode none.
-/

namespace ParseTrail.Text.Utf8

/-- The length of the sequence that a first byte announces. A byte that announces none counts
as a sequence of its own. -/
def sequenceLength (first : UInt8) : Nat :=
  if first < 0x80 then 1
  else if first &&& 0xe0 = 0xc0 then 2
  else if first &&& 0xf0 = 0xe0 then 3
  else if first &&& 0xf8 = 0xf0 then 4
  else 1

/-- Whether a byte continues a sequence. -/
def isContinuation (byte : UInt8) : Bool :=
  byte &&& 0xc0 = 0x80

/-- The character with a code point that takes no fewer than the number of bytes used for it. -/
def ofCode? (least code : Nat) : Option Char :=
  if h : code.isValidChar then
    if least ≤ code then some (Char.ofNatAux code h) else none
  else none

/-- The character that a sequence encodes, where all bytes but the first are known to continue
it. -/
def decode? : List UInt8 → Option Char
  | [a] => if a < 0x80 then ofCode? 0 a.toNat else none
  | [a, b] => ofCode? 0x80 ((a &&& 0x1f).toNat * 64 + (b &&& 0x3f).toNat)
  | [a, b, c] =>
    ofCode? 0x800 (((a &&& 0x0f).toNat * 64 + (b &&& 0x3f).toNat) * 64 + (c &&& 0x3f).toNat)
  | [a, b, c, d] =>
    ofCode? 0x10000
      ((((a &&& 0x07).toNat * 64 + (b &&& 0x3f).toNat) * 64 + (c &&& 0x3f).toNat) * 64
        + (d &&& 0x3f).toNat)
  | _ => none

end ParseTrail.Text.Utf8
