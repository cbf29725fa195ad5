import Templating.Text.Blank

/-!
# Attributes of a tag

An attribute is written `name="value"`, with blanks allowed around the equals sign.  The first place
that looks like one decides, even if what follows is wrong.

## What is here

* `Attribute.candidate?` recognizes a place that looks like an attribute, `Attribute.read` reads the
  value there, and `Attribute.find` searches the body of a tag.
-/

set_option autoImplicit false

namespace Templating
namespace Attribute

/-- Why there is no attribute. -/
inductive Fault where
  | missing
  | missingClosingQuote
  /-- A value with a line break in it. -/
  | multiLine
  deriving DecidableEq, Repr

/-- What follows the opening quote in a text that starts with the attribute `name`. -/
def candidate? (name t : Text) : Option Text := do
  let rest ← Text.after? name t
  let rest ← Text.after? ['='] (Text.trimStart rest)
  Text.after? ['"'] (Text.trimStart rest)

/-- The value in a text that starts after the opening quote. -/
def read (t : Text) : Except Fault Text :=
  match Text.cut? ['"'] t with
  | none => .error .missingClosingQuote
  | some (value, _) => if '\n' ∈ value then .error .multiLine else .ok value

/-- Searches from a place that is, or is not, the start of a word. -/
def findFrom (name : Text) (atWord : Bool) : Text → Except Fault Text
  | [] => .error .missing
  | c :: t =>
    match if atWord then candidate? name (c :: t) else none with
    | some value => read value
    | none => findFrom name (Text.isBlank c) t

/-- The value of an attribute in the body of a tag. -/
def find (name body : Text) : Except Fault Text := findFrom name true body

end Attribute
end Templating
