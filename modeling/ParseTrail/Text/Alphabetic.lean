import ParseTrail.Text.Category

/-!
# Alphabetic characters

The characters with the property Alphabetic, and numbers of all scripts (Unicode 17).
-/

namespace ParseTrail.Text

/-- Code points of alphabetic characters. -/
def alphabeticCodes : CodeSet :=
  (Category.codesOfAll (.letterNumber :: Category.letters)).union ⟨Category.otherAlphabeticRanges⟩

/-- Code points of numbers. -/
def numericCodes : CodeSet :=
  Category.codesOfAll Category.numbers

/-- Whether a character is alphabetic. -/
def isAlphabetic (c : Char) : Bool :=
  alphabeticCodes.contains c.toNat

/-- Whether a character is alphabetic or a number. -/
def isAlphanumeric (c : Char) : Bool :=
  isAlphabetic c || numericCodes.contains c.toNat

end ParseTrail.Text
