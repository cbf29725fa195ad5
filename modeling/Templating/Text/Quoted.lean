import Templating.Text.Hex
import Templating.Text.Printable

/-!
# Quoted texts and characters

Reports and version errors show a text or a character between quotes, with everything a reader
could not see written as an escape.

* `Text.quoted` puts a text between double quotes.
* `Text.quotedChar` puts one character between single quotes.
-/

set_option autoImplicit false

namespace Templating
namespace Text

/-- How a character stands between two quotes `mark`. -/
def quoteChar (mark c : Char) : Text :=
  if c = '\x00' then ['\\', '0']
  else if c = '\t' then ['\\', 't']
  else if c = '\r' then ['\\', 'r']
  else if c = '\n' then ['\\', 'n']
  else if c = '\\' then ['\\', '\\']
  else if c = mark then ['\\', mark]
  else if isPrintable c then [c]
  else ['\\', 'u', '\x7b'] ++ hex c.toNat ++ ['\x7d']

/-- A text between double quotes. -/
def quoted (t : Text) : Text := ['"'] ++ t.flatMap (quoteChar '"') ++ ['"']

/-- A character between single quotes. -/
def quotedChar (c : Char) : Text := ['\''] ++ quoteChar '\'' c ++ ['\'']

end Text
end Templating
