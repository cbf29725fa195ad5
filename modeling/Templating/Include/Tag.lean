import Templating.Include.Attribute
import Templating.Document
import Templating.Path.Fold
import Templating.Grammar

/-!
# Include tags

`IncludeTag.findAll` looks for include tags in a document and for nothing else: every other kind of
tag is passed over as if it were text.
-/

set_option autoImplicit false

namespace Templating

/-- An include tag of a file. -/
structure IncludeTag where
  /-- The whole tag. -/
  span : Span
  /-- The path as the tag has it. -/
  includePath : Text
  /-- The file it names. -/
  target : Path
  deriving DecidableEq, Repr

namespace IncludeTag

/-- The attribute that names the file. -/
def fileAttribute : Text := ['f', 'i', 'l', 'e']

/-- A faulty attribute as the error raised at a tag. -/
def faultError (l : Location) : Attribute.Fault → BuildError
  | .missing => .missingBlockAttribute fileAttribute l
  | .missingClosingQuote => .attributeMissingClosingQuote fileAttribute l
  | .multiLine => .invalidIncludedFileFormat l

/-- The include tags in the rest `t` of a document, which starts at an offset. -/
def findFrom (d : Document) (offset : Nat) (t : Text) : Except BuildError (List IncludeTag) :=
  match _h : Text.cut? Tag.inclusion.opening t with
  | none => .ok []
  | some (before, inside) =>
    let start := offset + before.size
    let bodyStart := start + Tag.inclusion.opening.size
    match _h' : Text.cut? Tag.inclusion.closing inside with
    | none => .error (.missingClosingBlock Tag.inclusion.closing (d.locate ⟨start, bodyStart⟩))
    | some (body, rest) =>
      let stop := bodyStart + body.size + Tag.inclusion.closing.size
      match Attribute.find fileAttribute body with
      | .error fault => .error (faultError (d.locate ⟨start, stop⟩) fault)
      | .ok includePath =>
        match findFrom d stop rest with
        | .error e => .error e
        | .ok tags => .ok (⟨⟨start, stop⟩, includePath, Path.resolve d.path ⟨includePath⟩⟩ :: tags)
termination_by t.length
decreasing_by
  have h1 := congrArg List.length (Text.cut?_eq_some _h)
  have h2 := congrArg List.length (Text.cut?_eq_some _h')
  have h3 : Tag.inclusion.closing.length = 2 := rfl
  simp only [List.length_append] at h1 h2
  omega

/-- The include tags of a document, in order. -/
def findAll (d : Document) : Except BuildError (List IncludeTag) := findFrom d 0 d.text

end IncludeTag
end Templating
