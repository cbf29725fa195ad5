import Templating.Toml.Quoted
import Templating.Version.Basic

/-!
# TOML settings

Settings are written in a small part of TOML: lines that give a key a value, where a value is a
string, an integer or an array of strings.  Everything else that TOML has is refused here, as is
giving a key twice.

## What is here

* `Toml.Value` is a value, `Toml.number?`, `Toml.items?` and `Toml.value?` read values.
* `Toml.entry?` reads a key with its value, `Toml.ofText?` reads a whole document.
-/

set_option autoImplicit false

namespace Templating
namespace Toml

/-- A value of a key. -/
inductive Value where
  | text (text : Text)
  | number (n : Int)
  | texts (texts : List Text)
  deriving DecidableEq, Repr

/-! ## Integers -/

/-- The digits of a number, where a single underscore may stand between two digits. -/
def digits? (isDigit : Char → Bool) : Text → Option Text
  | [] => none
  | [d] => if isDigit d then some [d] else none
  | d :: '_' :: t => if isDigit d then (digits? isDigit t).map (d :: ·) else none
  | d :: c :: t => if isDigit d then (digits? isDigit (c :: t)).map (d :: ·) else none

/-- Whether a character is a digit to base 8. -/
def isOctal (c : Char) : Bool := '0' ≤ c && c ≤ '7'

/-- Whether a character is a digit to base 2. -/
def isBinary (c : Char) : Bool := c = '0' || c = '1'

/-- The number that digits stand for. -/
def inBase (base : Nat) (digits : Text) : Nat :=
  digits.foldl (fun n c => base * n + (Text.hexDigit? c).getD 0) 0

/-- A decimal number without a sign, which does not begin with a zero unless it is zero. -/
def decimal? (t : Text) : Option Nat :=
  if t.head? = some '0' ∧ t ≠ ['0'] then none else (digits? Char.isDigit t).map (inBase 10)

/-- An integer of any size; only decimal ones have a sign. -/
def unbounded? : Text → Option Int
  | '+' :: t => (decimal? t).map Int.ofNat
  | '-' :: t => (decimal? t).map fun n => -Int.ofNat n
  | '0' :: 'x' :: t => (digits? (fun c => (Text.hexDigit? c).isSome) t).map (Int.ofNat <| inBase 16 ·)
  | '0' :: 'o' :: t => (digits? isOctal t).map (Int.ofNat <| inBase 8 ·)
  | '0' :: 'b' :: t => (digits? isBinary t).map (Int.ofNat <| inBase 2 ·)
  | t => (decimal? t).map Int.ofNat

/-- Whether a character can stand in an integer. -/
def inNumber (c : Char) : Bool := c.isAlphanum || c = '_' || c = '+' || c = '-'

/-- Reads an integer of at most 64 bits. -/
def number? (t : Text) : Option (Read Int t) :=
  match unbounded? (t.takeWhile inNumber) with
  | none => none
  | some n =>
    if h : (t.dropWhile inNumber).length < t.length ∧ -0x8000000000000000 ≤ n ∧
        n < 0x8000000000000000 then
      some ⟨n, t.dropWhile inNumber, h.1⟩
    else none

/-! ## Trivia -/

/-- A text without the blanks, line breaks and comments at its front; it begins within a comment if
`inComment` holds. -/
def skipTrivia (inComment : Bool) : Text → Text
  | [] => []
  | c :: t =>
    if c = '\n' ∨ (c = '\r' ∧ t.head? = some '\n') then skipTrivia false t
    else if inComment then if isPlain c then skipTrivia true t else c :: t
    else if c = ' ' ∨ c = '\t' then skipTrivia false t
    else if c = '#' then skipTrivia true t
    else c :: t

theorem length_skipTrivia_le (inComment : Bool) (t : Text) :
    (skipTrivia inComment t).length ≤ t.length := by
  induction t generalizing inComment with
  | nil => exact Nat.le_refl _
  | cons c t ih =>
    unfold skipTrivia
    repeat' split
    all_goals first
      | exact Nat.le_succ_of_le (ih _)
      | exact Nat.le_refl _

/-- A text without the comment at its front. -/
def skipComment (t : Text) : Text := if t.head? = some '#' then t.dropWhile isPlain else t

theorem length_skipComment_le (t : Text) : (skipComment t).length ≤ t.length := by
  unfold skipComment
  split
  · exact (List.dropWhile_sublist _).length_le
  · exact Nat.le_refl _

/-- What follows the end of a line whose last value has been read: blanks and a comment may stand in
front of the line break. -/
def lineEnd? (t : Text) : Option Text :=
  match skipComment (skipBlanks t) with
  | [] => some []
  | c :: u => (Read.break? (c :: u)).map Read.rest

theorem length_lineEnd?_le {t rest : Text} (h : lineEnd? t = some rest) :
    rest.length ≤ t.length := by
  have hle := Nat.le_trans (length_skipComment_le (skipBlanks t)) (length_skipBlanks_le t)
  unfold lineEnd? at h
  split at h
  · cases h
    exact Nat.zero_le _
  · next c u hu =>
    obtain ⟨r, -, rfl⟩ := Option.map_eq_some_iff.1 h
    exact Nat.le_trans (Nat.le_of_lt r.shorter) (hu ▸ hle)

/-! ## Values -/

/-- Reads the items of an array and its closing bracket, from the front of an item on. -/
def items? (t : Text) : Option (Read (List Text) t) :=
  let u := skipTrivia false t
  have hu : u.length ≤ t.length := length_skipTrivia_le false t
  match Read.mark? [']'] u with
  | some r => some ((r.map fun _ => []).widen hu)
  | none =>
    match string? Quotes.all u with
    | none => none
    | some ⟨s, rest, hs⟩ =>
      let v := skipTrivia false rest
      have hv : v.length < t.length :=
        Nat.lt_of_le_of_lt (length_skipTrivia_le false rest) (Nat.lt_of_lt_of_le hs hu)
      match Read.mark? [']'] v, Read.mark? [','] v with
      | some r, _ => some ((r.map fun _ => [s]).widen (Nat.le_of_lt hv))
      | none, some ⟨_, w, hw⟩ =>
        (items? w).map fun r => (r.map (s :: ·)).widen (Nat.le_of_lt (Nat.lt_trans hw hv))
      | none, none => none
termination_by t.length
decreasing_by exact Nat.lt_trans hw hv

/-- Reads a value. -/
def value? (t : Text) : Option (Read Value t) :=
  match string? Quotes.all t, Read.mark? ['['] t with
  | some r, _ => some (r.map .text)
  | none, some r => (items? r.rest).map fun items => r.behind (items.map .texts)
  | none, none => (number? t).map (Read.map .number)

/-! ## Documents -/

/-- Whether a character can stand in a key without quotes. -/
def inKey (c : Char) : Bool := c.isAlphanum || c = '_' || c = '-'

/-- Reads a key. -/
def key? (t : Text) : Option (Read Text t) :=
  match string? Quotes.short t with
  | some r => some r
  | none =>
    if h : (t.dropWhile inKey).length < t.length then
      some ⟨t.takeWhile inKey, t.dropWhile inKey, h⟩
    else none

/-- Reads a key, an equals sign and a value. -/
def entry? (t : Text) : Option (Read (Text × Value) t) :=
  match key? t with
  | none => none
  | some ⟨key, rest, hk⟩ =>
    let u := skipBlanks rest
    have hu : u.length < t.length := Nat.lt_of_le_of_lt (length_skipBlanks_le rest) hk
    match Read.mark? ['='] u with
    | none => none
    | some ⟨_, v, hv⟩ =>
      (value? (skipBlanks v)).map fun r =>
        (r.map fun value => (key, value)).widen
          (Nat.le_trans (length_skipBlanks_le v) (Nat.le_of_lt (Nat.lt_trans hv hu)))

/-- The entries of a document, in order. -/
def entries? (t : Text) : Option (List (Text × Value)) :=
  let u := skipTrivia false t
  have _hu : u.length ≤ t.length := length_skipTrivia_le false t
  if u = [] then some []
  else
    match entry? u with
    | none => none
    | some ⟨entry, rest, _hr⟩ =>
      match _h : lineEnd? rest with
      | none => none
      | some next => (entries? next).map (entry :: ·)
termination_by t.length
decreasing_by exact Nat.lt_of_le_of_lt (length_lineEnd?_le _h) (Nat.lt_of_lt_of_le _hr _hu)

/-- The keys of a document with their values, in order.  The document may have a byte-order mark. -/
def ofText? (t : Text) : Option (List (Text × Value)) :=
  match entries? (if t.head? = some '\uFEFF' then t.tail else t) with
  | none => none
  | some entries => if (entries.map Prod.fst).Nodup then some entries else none

end Toml
end Templating
