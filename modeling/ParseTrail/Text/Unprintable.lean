import ParseTrail.Text.Category

/-!
# Characters that cannot be shown as they are

Control, format, surrogate, private-use and unassigned code points, the separators other than the
plain space, and the characters that attach to the one before them. The half-width voiced sound
marks are shown as they are, though they attach too.
-/

namespace ParseTrail.Text

/-- The half-width voiced sound marks. -/
def soundMarks : CodeSet :=
  .range 0xff9e 0xff9f

/-- Code points that attach to the one before them. -/
def extenderCodes : CodeSet :=
  (Category.codesOfAll [.nonspacingMark, .enclosingMark]).union ⟨Category.otherExtenderRanges⟩

/-- Code points whose characters quoted text shows by their numbers. -/
def unprintableCodes : CodeSet :=
  let invisible := Category.codesOfAll (.unassigned :: (Category.controls ++ Category.separators))
  (invisible.union extenderCodes).difference ((CodeSet.single 0x20).union soundMarks)

/-- Whether quoted text shows a character by its number. -/
def isUnprintable (c : Char) : Bool :=
  if c.toNat < 0x7f then c.toNat < 0x20 else unprintableCodes.contains c.toNat

end ParseTrail.Text
