import Templating.Text.Hex
import Templating.Text.Read

/-!
# TOML strings

A string stands between two quotes of its kind.  Between double quotes a backslash starts an escape,
between single quotes it does not.  A short string has one quote on each side and stays on its line; a
long one has three and may span lines, where a line break right behind the opening quotes does not
count.

## What is here

* `Toml.Quotes` are the kinds of quotes.
* `Toml.escape?` reads an escape, `Toml.part?` the next part of a string.
* `Toml.string?` reads a string with its quotes.
-/

set_option autoImplicit false

namespace Templating
namespace Toml

/-! ## Characters -/

/-- Whether a character may stand in a comment or, unless it has a meaning there, in a string. -/
def isPlain (c : Char) : Bool := c = '\t' || (0x20 ≤ c.toNat && c.toNat ≠ 0x7F)

/-- A text without the blanks at its front. -/
def skipBlanks (t : Text) : Text := t.dropWhile fun c => c = ' ' || c = '\t'

/-- A text without the blanks and line breaks at its front. -/
def skipLines : Text → Text
  | [] => []
  | c :: t =>
    if c = ' ' ∨ c = '\t' ∨ c = '\n' ∨ (c = '\r' ∧ t.head? = some '\n') then skipLines t else c :: t

theorem length_skipBlanks_le (t : Text) : (skipBlanks t).length ≤ t.length :=
  (List.dropWhile_sublist _).length_le

theorem length_skipLines_le (t : Text) : (skipLines t).length ≤ t.length := by
  induction t with
  | nil => exact Nat.le_refl _
  | cons c t ih =>
    unfold skipLines
    split
    · exact Nat.le_succ_of_le ih
    · exact Nat.le_refl _

/-! ## Escapes -/

/-- The character whose code point is written with exactly `width` hexadecimal digits. -/
def codePoint? (width : Nat) (digits : Text) : Option Char :=
  match Text.hexNumber? digits with
  | some n => if digits.length = width ∧ n.isValidChar then some (Char.ofNat n) else none
  | none => none

/-- The character that one character stands for behind a backslash. -/
def escaped? : Char → Option Char
  | 'b' => some '\x08'
  | 't' => some '\t'
  | 'n' => some '\n'
  | 'f' => some '\x0c'
  | 'r' => some '\r'
  | '"' => some '"'
  | '\\' => some '\\'
  | _ => none

/-- The number of digits of a code point behind a character that announces one. -/
def codePointWidth? : Char → Option Nat
  | 'u' => some 4
  | 'U' => some 8
  | _ => none

/-- Reads the rest of an escape, behind the backslash. -/
def escape? : (t : Text) → Option (Read Char t)
  | [] => none
  | c :: t =>
    match escaped? c, codePointWidth? c with
    | some d, _ => some ⟨d, t, Nat.lt_succ_self _⟩
    | none, some width =>
      (codePoint? width (t.take width)).map
        (⟨·, t.drop width, Nat.lt_succ_of_le (List.drop_sublist width t).length_le⟩)
    | none, none => none

/-- Reads a line break that a backslash takes back, with all blanks and line breaks around it. -/
def joint? (t : Text) : Option (Read Unit t) :=
  match Read.break? (skipBlanks t) with
  | none => none
  | some r =>
    some ⟨(), skipLines r.rest, by
      have := r.shorter
      have := length_skipLines_le r.rest
      have := length_skipBlanks_le t
      omega⟩

/-! ## Strings -/

/-- The quotes of a string. -/
structure Quotes where
  quote : Char
  /-- Whether there are three of them on each side. -/
  long : Bool

namespace Quotes

/-- All kinds of quotes; of two that can open a string the first one does. -/
def all : List Quotes := [⟨'"', true⟩, ⟨'\'', true⟩, ⟨'"', false⟩, ⟨'\'', false⟩]

/-- The quotes of strings that stay on their line. -/
def short : List Quotes := [⟨'"', false⟩, ⟨'\'', false⟩]

/-- Whether a backslash has a meaning between the quotes. -/
def escapes (q : Quotes) : Bool := q.quote = '"'

/-- The quotes on either side. -/
def mark (q : Quotes) : Text := List.replicate (if q.long then 3 else 1) q.quote

/-- How many quotes that belong to the string can stand right in front of the closing ones. -/
def spare (q : Quotes) : Nat := if q.long then 2 else 0

/-- Reads the opening quotes of one of some kinds. -/
def open? (kinds : List Quotes) (t : Text) : Option (Read Quotes t) :=
  kinds.findSome? fun q => (Read.mark? q.mark t).map (Read.map fun _ => q)

/-- Reads the closing quotes behind at most `spare` that belong to the string, as many as there are. -/
def close? (q : Quotes) (t : Text) : Nat → Option (Read Text t)
  | 0 => (Read.mark? q.mark t).map (Read.map fun _ => [])
  | spare + 1 =>
    let inner := List.replicate (spare + 1) q.quote
    ((Read.mark? (inner ++ q.mark) t).map (Read.map fun _ => inner)).or (close? q t spare)

end Quotes

/-- A part of a string, with the characters it stands for. -/
inductive Part where
  | inner (text : Text)
  /-- The string ends here. -/
  | last (text : Text)

/-- Reads the next part of a string. -/
def part? (q : Quotes) (t : Text) : Option (Read Part t) :=
  match q.close? t q.spare with
  | some r => some (r.map .last)
  | none =>
    match t with
    | [] => none
    | c :: t =>
      if q.escapes ∧ c = '\\' then
        match if q.long then joint? t else none with
        | some r => some ((r.map fun _ => .inner []).cons c)
        | none => (escape? t).map fun r => (r.map fun d => .inner [d]).cons c
      else if isPlain c then some ⟨.inner [c], t, Nat.lt_succ_self _⟩
      else if q.long then (Read.break? (c :: t)).map (Read.map fun _ => .inner ['\n'])
      else none

/-- Reads a string behind its opening quotes. -/
def content? (q : Quotes) (t : Text) : Option (Read Text t) :=
  match part? q t with
  | none => none
  | some ⟨.last s, rest, h⟩ => some ⟨s, rest, h⟩
  | some ⟨.inner s, rest, h⟩ =>
    (content? q rest).map fun r => (r.map (s ++ ·)).widen (Nat.le_of_lt h)
termination_by t.length

/-- Where a string begins behind its opening quotes. -/
def start (q : Quotes) (t : Text) : Text := if q.long then t.dropBreak else t

theorem length_start_le (q : Quotes) (t : Text) : (start q t).length ≤ t.length := by
  unfold start
  split
  · exact Text.length_dropBreak_le t
  · exact Nat.le_refl _

/-- Reads a string with quotes of one of some kinds. -/
def string? (kinds : List Quotes) (t : Text) : Option (Read Text t) :=
  match Quotes.open? kinds t with
  | none => none
  | some q => (content? q.value (start q.value q.rest)).map fun r =>
      q.behind (r.widen (length_start_le _ _))

end Toml
end Templating
