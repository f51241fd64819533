import ParseTrail.Text.Hex
import ParseTrail.Text.Unprintable

/-!
# Quoted text

Text in double quotes, for labels and messages. The quote, the backslash and the common control
characters have escapes of their own, and what cannot be shown is written by its code point.
-/

namespace ParseTrail.Text

/-- A character as it stands inside quotes. -/
def escapeQuoted (c : Char) : List Char :=
  match c with
  | '\x00' => ['\\', '0']
  | '\t' => ['\\', 't']
  | '\n' => ['\\', 'n']
  | '\r' => ['\\', 'r']
  | '"' => ['\\', '"']
  | '\\' => ['\\', '\\']
  | c => if isUnprintable c then ['\\', 'u', '\x7b'] ++ hexDigits c.toNat ++ ['\x7d'] else [c]

/-- A text in double quotes. -/
def quoted (s : String) : String :=
  String.ofList ('"' :: s.toList.flatMap escapeQuoted ++ ['"'])

end ParseTrail.Text
