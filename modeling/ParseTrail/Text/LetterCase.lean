import ParseTrail.Text.Category

/-!
# Upper and lower case

The characters with the properties Uppercase and Lowercase, which are more than the letters of
these cases (Unicode 16).
-/

namespace ParseTrail.Text

/-- Code points that are upper-case without being letters. -/
def otherUppercaseRanges : List (Nat × Nat) :=
  [(0x2160, 0x216f), (0x24b6, 0x24cf), (0x1f130, 0x1f149), (0x1f150, 0x1f169), (0x1f170, 0x1f189)]

/-- Code points that are lower-case without being lower-case letters. -/
def otherLowercaseRanges : List (Nat × Nat) :=
  [(0xaa, 0xaa), (0xba, 0xba), (0x2b0, 0x2b8), (0x2c0, 0x2c1), (0x2e0, 0x2e4), (0x345, 0x345),
   (0x37a, 0x37a), (0x10fc, 0x10fc), (0x1d2c, 0x1d6a), (0x1d78, 0x1d78), (0x1d9b, 0x1dbf),
   (0x2071, 0x2071), (0x207f, 0x207f), (0x2090, 0x209c), (0x2170, 0x217f), (0x24d0, 0x24e9),
   (0x2c7c, 0x2c7d), (0xa69c, 0xa69d), (0xa770, 0xa770), (0xa7f2, 0xa7f4), (0xa7f8, 0xa7f9),
   (0xab5c, 0xab5f), (0xab69, 0xab69), (0x10780, 0x10780), (0x10783, 0x10785), (0x10787, 0x107b0),
   (0x107b2, 0x107ba), (0x1e030, 0x1e06d)]

/-- Code points of upper-case characters. -/
def uppercaseCodes : CodeSet :=
  (Category.olderCodes .uppercaseLetter).union ⟨otherUppercaseRanges⟩

/-- Code points of lower-case characters. -/
def lowercaseCodes : CodeSet :=
  (Category.olderCodes .lowercaseLetter).union ⟨otherLowercaseRanges⟩

end ParseTrail.Text
