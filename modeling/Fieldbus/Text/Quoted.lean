import Fieldbus.Text.Number
import Fieldbus.Text.Unprintable
/-!
Quoted text: a name as it appears in messages.

The text stands between double quotes. A double quote, a backslash and the controls with a short
form are written with a backslash; other characters that do not print as themselves are written as
their code point in hexadecimal.
-/

namespace Fieldbus

/-- How one character stands inside quotes. -/
def quotedChar (c : Char) : String :=
  match c with
  | '"' => "\\\""
  | '\\' => "\\\\"
  | '\n' => "\\n"
  | '\r' => "\\r"
  | '\t' => "\\t"
  | '\x00' => "\\0"
  | c => if isUnprintable c then "\\u\x7b" ++ hexDigits c.toNat ++ "\x7d" else c.toString

/-- A text between quotes. -/
def quoted (s : String) : String :=
  "\"" ++ String.join (s.toList.map quotedChar) ++ "\""

end Fieldbus
