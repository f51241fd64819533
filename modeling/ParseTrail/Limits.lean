/-!
# Limits of size

How large offsets, numbers and texts may become. What is counted, drawn or asked for and would go
past its limit is a fault or an error, never a smaller result.

The offsets of a cursor are the exception. Where a cursor stands and where its lines lie is told
without a look at `offsetLimit`, and so is the number of a line. What is told is right as long as
the input ends before the last offset. `Cursor.WithinLimits` says this of a cursor, and whatever is
done with the cursor leaves it so.
-/

namespace ParseTrail

/-- Offsets, lengths and counts are the numbers below this one, 2^64. -/
def offsetLimit : Nat := 18446744073709551616

/-- The numbers that a numeral can denote are those below this one, 2^64. -/
def numberLimit : Nat := 18446744073709551616

/-- The longest run of one character that a drawing may hold, 2^63 - 1. -/
def widthLimit : Nat := 9223372036854775807

/-- The largest number of bytes to ask a source for at a time, 2^63 - 1. -/
def bufferLimit : Nat := 9223372036854775807

/-- Lists that a parser is asked for are shorter than this, 2^58: so many items of 32 bytes are the
first to be more than the 2^63 - 1 bytes that one list may take. The limit is that of items of this
size. Of larger items fewer would fit, of smaller ones more, and items of no size have no limit. -/
def listLimit : Nat := 288230376151711744

/-- The depth to which the parts of a pattern may nest. -/
def nestLimit : Nat := 250

/-- The size that the automaton of a pattern may have, ten mebibytes. -/
def automatonLimit : Nat := 10485760

/-- The counts of a repetition in a pattern are the numbers below this one, 2^32. -/
def countLimit : Nat := 4294967296

end ParseTrail
