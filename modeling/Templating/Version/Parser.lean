import Templating.Version.Basic
import Templating.Text.Quoted

/-!
# Reading versions

A version is read from left to right, and the first thing that cannot stand where it stands decides
what is reported.

## What is here

* `Version.Part` names the parts of a version, `Version.ParseError` what can be wrong with one, and
  `Version.ParseError.message` puts it into words.
* `Version.parse` reads a full version; `Version.parseTools` also takes one with missing parts, which
  count as zero.
-/

set_option autoImplicit false

namespace Templating
namespace Version

/-- A part of a version. -/
inductive Part where
  | major
  | minor
  | patch
  | pre
  | build
  deriving DecidableEq, Repr

/-- The name of a part in messages. -/
def Part.name : Part → String
  | .major => "major version number"
  | .minor => "minor version number"
  | .patch => "patch version number"
  | .pre => "pre-release identifier"
  | .build => "build metadata"

/-- Why a text is not a version. -/
inductive ParseError where
  | empty
  /-- The text ends where `part` should go on. -/
  | unexpectedEnd (part : Part)
  /-- A number of `part` should start at this character. -/
  | unexpected (found : Char) (part : Part)
  /-- Nothing of a version can follow `part` with this character. -/
  | unexpectedAfter (found : Char) (part : Part)
  | leadingZero (part : Part)
  /-- A number that does not fit into 64 bits. -/
  | overflow (part : Part)
  | emptySegment (part : Part)
  deriving DecidableEq, Repr

/-- A parse error in words. -/
def ParseError.message : ParseError → String
  | .empty => "empty string, expected a semver version"
  | .unexpectedEnd p => s!"unexpected end of input while parsing {p.name}"
  | .unexpected c p =>
    s!"unexpected character {String.ofList (Text.quotedChar c)} while parsing {p.name}"
  | .unexpectedAfter c p => s!"unexpected character {String.ofList (Text.quotedChar c)} after {p.name}"
  | .leadingZero p => s!"invalid leading zero in {p.name}"
  | .overflow p => s!"value of {p.name} exceeds u64::MAX"
  | .emptySegment p => s!"empty identifier segment in {p.name}"

/-! ## Parts -/

/-- The number at the front of a text, and the rest. -/
def number (part : Part) (t : Text) : Except ParseError (Nat × Text) :=
  let digits := t.takeWhile Char.isDigit
  let rest := t.dropWhile Char.isDigit
  match digits, rest with
  | [], [] => .error (.unexpectedEnd part)
  | [], c :: _ => .error (.unexpected c part)
  | '0' :: _ :: _, _ => .error (.leadingZero part)
  | _, _ => if value digits < 0x10000000000000000 then .ok (value digits, rest)
    else .error (.overflow part)

/-- The rest of a text after the dot that ends `part`. -/
def dot (part : Part) : Text → Except ParseError Text
  | '.' :: rest => .ok rest
  | c :: _ => .error (.unexpectedAfter c part)
  | [] => .error (.unexpectedEnd part)

/-- The characters of identifiers. -/
def isIdentifierChar (c : Char) : Bool := c.isAlphanum || c = '-'

/-- Whether an identifier of `part` is a number written with a needless zero in front. -/
def hasLeadingZero (part : Part) (identifier : Text) : Bool :=
  part = .pre && identifier.all Char.isDigit && 1 < identifier.length && identifier.head? = some '0'

/-- The dot-separated identifiers at the front of a text, and the rest. -/
def identifiers (part : Part) (t : Text) : Except ParseError (List Text × Text) :=
  let identifier := t.takeWhile isIdentifierChar
  if identifier = [] then .error (.emptySegment part)
  else if hasLeadingZero part identifier then .error (.leadingZero part)
  else
    match _h : t.dropWhile isIdentifierChar with
    | '.' :: rest =>
      match identifiers part rest with
      | .ok (more, rest) => .ok (identifier :: more, rest)
      | .error e => .error e
    | rest => .ok ([identifier], rest)
termination_by t.length
decreasing_by
  have : (t.dropWhile isIdentifierChar).length ≤ t.length := (List.dropWhile_sublist _).length_le
  simp only [_h, List.length_cons] at this
  omega

/-- The identifiers that `mark` announces at the front of a text; without it there are none. -/
def marked (mark : Char) (part : Part) : Text → Except ParseError (List Text × Text)
  | [] => .ok ([], [])
  | c :: rest => if c = mark then identifiers part rest else .ok ([], c :: rest)

/-! ## Versions -/

/-- The part of a version that was read last. -/
def lastPart (pre build : List Text) : Part :=
  if build ≠ [] then .build else if pre ≠ [] then .pre else .patch

/-- Reads a full version. -/
def parse (t : Text) : Except ParseError Version := do
  if t = [] then throw .empty
  let (major, t) ← number .major t
  let t ← dot .major t
  let (minor, t) ← number .minor t
  let t ← dot .minor t
  let (patch, t) ← number .patch t
  let (pre, t) ← marked '-' .pre t
  let (build, t) ← marked '+' .build t
  match t with
  | [] => return { major, minor, patch, pre, build }
  | c :: _ => throw (.unexpectedAfter c (lastPart pre build))

/-- The numbers of a version text: what stands before a pre-release or build metadata. -/
def core (t : Text) : Text := t.takeWhile fun c => c ≠ '-' && c ≠ '+'

/-- The zeros that complete a version text with too few dots. -/
def padding (core : Text) : Text :=
  match core.count '.' with
  | 0 => ".0.0".toList
  | 1 => ".0".toList
  | _ => []

/-- Reads a version whose minor and patch numbers may be missing. -/
def parseTools (t : Text) : Except ParseError Version :=
  parse (core t ++ padding (core t) ++ t.drop (core t).length)

/-! ## Versions of this tool -/

/-- The version of this tool. -/
def current : Version := { major := 1, minor := 0, patch := 16 }

/-- The oldest version that knows include tags. -/
def includeMinimum : Version := { major := 1, minor := 0, patch := 10 }

end Version
end Templating
