import Templating.Text.Basic

/-!
# Hexadecimal numbers

Escapes name a character by the hexadecimal digits of its code point, and hashes are written in them.

* `Text.hex` writes a number, `Text.hexPadded` with zeros in front up to some width.
* `Text.hexDigit?` and `Text.hexNumber?` read digits and numbers.
-/

set_option autoImplicit false

namespace Templating
namespace Text

/-- The lower-case hexadecimal digits of a number, without leading zeros. -/
def hex (n : Nat) : Text := Nat.toDigits 16 n

/-- The lower-case hexadecimal digits of a number, with as many zeros in front as `width` asks for. -/
def hexPadded (width n : Nat) : Text := List.replicate (width - (hex n).length) '0' ++ hex n

/-- The value of a hexadecimal digit. -/
def hexDigit? (c : Char) : Option Nat :=
  if '0' ≤ c ∧ c ≤ '9' then some (c.toNat - '0'.toNat)
  else if 'a' ≤ c ∧ c ≤ 'f' then some (c.toNat - 'a'.toNat + 10)
  else if 'A' ≤ c ∧ c ≤ 'F' then some (c.toNat - 'A'.toNat + 10)
  else none

/-- The number that hexadecimal digits stand for. -/
def hexNumber? (digits : Text) : Option Nat :=
  digits.foldlM (fun n c => (hexDigit? c).map (16 * n + ·)) 0

end Text
end Templating
