import ParseTrail.Text.Alphabetic
import ParseTrail.Text.LetterCase
import ParseTrail.Text.Script
import ParseTrail.Text.WhiteSpace

/-!
# Properties of characters in patterns

Patterns name sets of characters by their general category, their script, or another property.
Case, spaces, hyphens and underscores in names do not count, and neither does a leading "is".
-/

namespace ParseTrail.Pattern

open Text

/-- A name without what does not count in it. -/
def plainName (name : List Char) : String :=
  let (marked, rest) := match name with
    | a :: b :: rest => if a.toLower == 'i' && b.toLower == 's' then (true, rest) else (false, name)
    | _ => (false, name)
  let kept := rest.filter fun c => c.toNat < 0x80 && c != ' ' && c != '_' && c != '-'
  let plain := String.ofList (kept.map Char.toLower)
  if marked && plain == "c" then "isc" else plain

/-- The general categories with a name. That of surrogates has none, since no text holds any. -/
def categories? : String → Option (List Category)
  | "l" | "letter" => some Category.letters
  | "lc" | "casedletter" => some Category.casedLetters
  | "lu" | "uppercaseletter" => some [.uppercaseLetter]
  | "ll" | "lowercaseletter" => some [.lowercaseLetter]
  | "lt" | "titlecaseletter" => some [.titlecaseLetter]
  | "lm" | "modifierletter" => some [.modifierLetter]
  | "lo" | "otherletter" => some [.otherLetter]
  | "m" | "mark" | "combiningmark" => some Category.marks
  | "mn" | "nonspacingmark" => some [.nonspacingMark]
  | "mc" | "spacingmark" => some [.spacingMark]
  | "me" | "enclosingmark" => some [.enclosingMark]
  | "n" | "number" => some Category.numbers
  | "nd" | "decimalnumber" | "digit" => some [.decimalNumber]
  | "nl" | "letternumber" => some [.letterNumber]
  | "no" | "othernumber" => some [.otherNumber]
  | "p" | "punctuation" | "punct" => some Category.punctuation
  | "pc" | "connectorpunctuation" => some [.connector]
  | "pd" | "dashpunctuation" => some [.dash]
  | "ps" | "openpunctuation" => some [.opening]
  | "pe" | "closepunctuation" => some [.closing]
  | "pi" | "initialpunctuation" => some [.initialQuote]
  | "pf" | "finalpunctuation" => some [.finalQuote]
  | "po" | "otherpunctuation" => some [.otherPunctuation]
  | "s" | "symbol" => some Category.symbols
  | "sm" | "mathsymbol" => some [.mathSymbol]
  | "sc" | "currencysymbol" => some [.currencySymbol]
  | "sk" | "modifiersymbol" => some [.modifierSymbol]
  | "so" | "othersymbol" => some [.otherSymbol]
  | "z" | "separator" => some Category.separators
  | "zs" | "spaceseparator" => some [.spaceSeparator]
  | "zl" | "lineseparator" => some [.lineSeparator]
  | "zp" | "paragraphseparator" => some [.paragraphSeparator]
  | "c" | "other" => some (.unassigned :: Category.controls)
  | "cc" | "control" | "cntrl" => some [.control]
  | "cf" | "format" => some [.format]
  | "co" | "privateuse" => some [.privateUse]
  | "cn" | "unassigned" => some [.unassigned]
  | _ => none

/-- The characters of the general categories with a name, or of a set that is named like one. -/
def categoryCodes? : String → Option CodeSet
  | "any" => some .all
  | "assigned" => some (Category.olderCodes .unassigned).complement
  | "ascii" => some (.range 0 0x7f)
  | name => (categories? name).map Category.olderCodesOfAll

/-- The characters of the script with a name. -/
def scriptCodes? (name : String) : Option CodeSet :=
  (Script.ofName? name).map fun script => ⟨script.ranges⟩

/-- The characters with the property of a name that is neither a general category nor a script. -/
def otherPropertyCodes? : String → Option CodeSet
  | "alphabetic" | "alpha" => some (alphabeticCodes.difference ⟨Category.newestRanges⟩)
  | "uppercase" | "upper" => some uppercaseCodes
  | "lowercase" | "lower" => some lowercaseCodes
  | "whitespace" | "wspace" | "space" => some whiteSpaceCodes
  | _ => none

/-- The characters with what one name says. -/
def propertyCodes? (name : List Char) : Option CodeSet :=
  let plain := plainName name
  otherPropertyCodes? plain <|> categoryCodes? plain <|> scriptCodes? plain

/-- The characters with a value of a property. -/
def valueCodes? (property value : List Char) : Option CodeSet :=
  match plainName property with
  | "generalcategory" | "gc" => categoryCodes? (plainName value)
  | "script" | "sc" => scriptCodes? (plainName value)
  | _ => none

/-- What stands before the first place where `mark` stands, and what stands after the mark. -/
def splitAt? (mark : List Char) : List Char → Option (List Char × List Char)
  | [] => none
  | c :: cs =>
    if mark.isPrefixOf (c :: cs) then some ([], (c :: cs).drop mark.length)
    else (splitAt? mark cs).map fun (before, after) => (c :: before, after)

/-- The characters that a text in braces stands for, and whether all others are meant. -/
def describedCodes? (text : List Char) : Option (CodeSet × Bool) :=
  match splitAt? ['!', '='] text with
  | some (property, value) => (valueCodes? property value).map (·, true)
  | none =>
    match (splitAt? [':'] text).or (splitAt? ['='] text) with
    | some (property, value) => (valueCodes? property value).map (·, false)
    | none => (propertyCodes? text).map (·, false)

end ParseTrail.Pattern
