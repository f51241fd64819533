import ParseTrail.Text.CodeSet
import ParseTrail.Text.Category.Letters
import ParseTrail.Text.Category.Marks
import ParseTrail.Text.Category.Numbers
import ParseTrail.Text.Category.Others
import ParseTrail.Text.Category.Punctuation
import ParseTrail.Text.Category.Symbols

/-!
# General categories

Each code point belongs to one of thirty categories. Quoted text goes by Unicode 17, patterns go
by Unicode 16, in which the code points that are new in 17 are unassigned.
-/

namespace ParseTrail.Text

/-- A general category. -/
inductive Category where
  | uppercaseLetter | lowercaseLetter | titlecaseLetter | modifierLetter | otherLetter
  | nonspacingMark | spacingMark | enclosingMark
  | decimalNumber | letterNumber | otherNumber
  | connector | dash | opening | closing | initialQuote | finalQuote | otherPunctuation
  | mathSymbol | currencySymbol | modifierSymbol | otherSymbol
  | spaceSeparator | lineSeparator | paragraphSeparator
  | control | format | surrogate | privateUse | unassigned
  deriving DecidableEq, Repr

namespace Category

/-- Every second code point of the runs in which letters of either case take turns, from the given
place of each run on. -/
def alternating (start : Nat) : CodeSet :=
  .ofCodes (alternatingRanges.flatMap fun (first, last) =>
    (List.range ((last - first + 1) / 2)).map fun k => first + start + 2 * k)

/-- The code points of a category that has a table of its own. -/
def tabled : Category → CodeSet
  | uppercaseLetter => (alternating 0).union ⟨uppercaseRanges⟩
  | lowercaseLetter => (alternating 1).union ⟨lowercaseRanges⟩
  | titlecaseLetter => ⟨titlecaseRanges⟩
  | modifierLetter => ⟨modifierLetterRanges⟩
  | otherLetter => ⟨otherLetterRanges⟩
  | nonspacingMark => ⟨nonspacingMarkRanges⟩
  | spacingMark => ⟨spacingMarkRanges⟩
  | enclosingMark => ⟨enclosingMarkRanges⟩
  | decimalNumber => ⟨decimalNumberRanges⟩
  | letterNumber => ⟨letterNumberRanges⟩
  | otherNumber => ⟨otherNumberRanges⟩
  | connector => ⟨connectorRanges⟩
  | dash => ⟨dashRanges⟩
  | opening => ⟨openRanges⟩
  | closing => ⟨closeRanges⟩
  | initialQuote => ⟨initialQuoteRanges⟩
  | finalQuote => ⟨finalQuoteRanges⟩
  | otherPunctuation => ⟨otherPunctuationRanges⟩
  | mathSymbol => ⟨mathSymbolRanges⟩
  | currencySymbol => ⟨currencySymbolRanges⟩
  | modifierSymbol => ⟨modifierSymbolRanges⟩
  | otherSymbol => ⟨otherSymbolRanges⟩
  | spaceSeparator => ⟨spaceSeparatorRanges⟩
  | lineSeparator => ⟨lineSeparatorRanges⟩
  | paragraphSeparator => ⟨paragraphSeparatorRanges⟩
  | control => ⟨controlRanges⟩
  | format => ⟨formatRanges⟩
  | surrogate => ⟨surrogateRanges⟩
  | privateUse => ⟨privateUseRanges⟩
  | unassigned => .empty

/-! ### Groups of categories -/

/-- Letters with case. -/
def casedLetters : List Category :=
  [uppercaseLetter, lowercaseLetter, titlecaseLetter]

/-- All letters. -/
def letters : List Category :=
  casedLetters ++ [modifierLetter, otherLetter]

/-- All marks. -/
def marks : List Category :=
  [nonspacingMark, spacingMark, enclosingMark]

/-- All numbers. -/
def numbers : List Category :=
  [decimalNumber, letterNumber, otherNumber]

/-- All punctuation. -/
def punctuation : List Category :=
  [connector, dash, opening, closing, initialQuote, finalQuote, otherPunctuation]

/-- All symbols. -/
def symbols : List Category :=
  [mathSymbol, currencySymbol, modifierSymbol, otherSymbol]

/-- All separators. -/
def separators : List Category :=
  [spaceSeparator, lineSeparator, paragraphSeparator]

/-- What is no character of a text, unassigned code points apart. -/
def controls : List Category :=
  [control, format, surrogate, privateUse]

/-! ### Code points -/

/-- Assigned code points. -/
def assignedCodes : CodeSet :=
  .unionAll ((letters ++ marks ++ numbers ++ punctuation ++ symbols ++ separators ++ controls).map
    tabled)

/-- The code points of a category. -/
def codes : Category → CodeSet
  | unassigned => assignedCodes.complement
  | category => category.tabled

/-- The code points of a category before Unicode 17. -/
def olderCodes : Category → CodeSet
  | unassigned => codes unassigned |>.union ⟨newestRanges⟩
  | category => category.tabled.difference ⟨newestRanges⟩

/-- The code points of several categories. -/
def codesOfAll (categories : List Category) : CodeSet :=
  .unionAll (categories.map codes)

/-- The code points of several categories before Unicode 17. -/
def olderCodesOfAll (categories : List Category) : CodeSet :=
  .unionAll (categories.map olderCodes)

end Category

end ParseTrail.Text
