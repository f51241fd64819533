import ParseTrail.Text.Category

/-!
# Characters of words

Letters, marks, decimal digits, letter-like numbers, connecting punctuation and the two joiners, of
all scripts (Unicode 16).
-/

namespace ParseTrail.Text

/-- Circled and squared letters, which count as letters though they are symbols. -/
def circledLetters : CodeSet :=
  ⟨[(0x24b6, 0x24e9), (0x1f130, 0x1f149), (0x1f150, 0x1f169), (0x1f170, 0x1f189)]⟩

/-- The zero-width joiner and non-joiner. -/
def joiners : CodeSet :=
  .range 0x200c 0x200d

/-- Code points of the characters that words are made of. -/
def wordCodes : CodeSet :=
  (Category.olderCodesOfAll (Category.letters ++ Category.marks
    ++ [.decimalNumber, .letterNumber, .connector])).union (circledLetters.union joiners)

/-- ASCII letters, digits and the underscore. -/
def asciiWordCodes : CodeSet :=
  ⟨[(0x30, 0x39), (0x41, 0x5a), (0x5f, 0x5f), (0x61, 0x7a)]⟩

end ParseTrail.Text
