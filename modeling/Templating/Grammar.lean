import Templating.Text.Basic

/-!
# Tags and grammars

A tag is written between the outer delimiters `<%` and `%>`; what follows the opening delimiter tells
one kind of tag from another.  Since `<%` alone opens a tag too, longer openings are tried first.

## What is here

* `Tag` lists the kinds of tag, with `Tag.opening` and `Tag.closing`.
* `Grammar` is a choice of tags in the order in which they are tried; `Grammar.ofTags` orders any
  choice, and `Grammar.match?` finds the tag that a text starts with.
-/

set_option autoImplicit false

namespace Templating

/-! ## Tags -/

/-- What every tag opens with. -/
def outerOpening : Text := ['<', '%']

/-- What every tag closes with. -/
def outerClosing : Text := ['%', '>']

/-- The kinds of tag. -/
inductive Tag where
  /-- `<% … %>`: statements of the program. -/
  | code
  /-- `<%= … %>`: an expression whose value becomes output. -/
  | print
  /-- `<%! … %>`: declarations next to the program. -/
  | declaration
  /-- `<%@include file="…" %>`: the contents of another file. -/
  | inclusion
  deriving DecidableEq, Repr, Inhabited

namespace Tag

/-- What tells a tag from the others, right after the outer opening delimiter. -/
def suffix : Tag → Text
  | code => []
  | print => ['=']
  | declaration => ['!']
  | inclusion => ['@', 'i', 'n', 'c', 'l', 'u', 'd', 'e']

/-- The opening delimiter of a tag. -/
def opening (tag : Tag) : Text := outerOpening ++ tag.suffix

/-- The closing delimiter of a tag. -/
def closing (_tag : Tag) : Text := outerClosing

/-- Every tag. -/
def all : List Tag := [code, print, declaration, inclusion]

theorem opening_ne_nil (tag : Tag) : tag.opening ≠ [] := by
  cases tag <;> exact List.cons_ne_nil _ _

end Tag

/-! ## Grammars -/

/-- The tags that are recognized, in the order in which they are tried. -/
structure Grammar where
  tags : List Tag
  deriving DecidableEq, Repr

namespace Grammar

/-- The grammar of some tags: repetitions do not count, longer openings come first, and tags with
equally long openings keep their order. -/
def ofTags (tags : List Tag) : Grammar :=
  ⟨tags.eraseDups.mergeSort fun a b => b.suffix.size ≤ a.suffix.size⟩

/-- The grammar of templates. -/
def standard : Grammar := ofTags Tag.all

/-- The first tag, in order, that a text starts with. -/
def match? (g : Grammar) (t : Text) : Option Tag := g.tags.find? fun tag => tag.opening.isPrefixOf t

/-- The most bytes an opening delimiter has. -/
def maxOpening (g : Grammar) : Nat := ((g.tags.map (·.opening.size)).max?).getD 0

/-- The fewest bytes an opening delimiter has. -/
def minOpening (g : Grammar) : Nat := ((g.tags.map (·.opening.size)).min?).getD 0

/-- The most bytes a closing delimiter has. -/
def maxClosing (g : Grammar) : Nat := ((g.tags.map (·.closing.size)).max?).getD 0

/-- The fewest bytes a closing delimiter has. -/
def minClosing (g : Grammar) : Nat := ((g.tags.map (·.closing.size)).min?).getD 0

/-- The bytes of a text that can decide which tag it starts with, cut back to whole characters. -/
def window (g : Grammar) (t : Text) : Text := t.takeBytes g.maxOpening

theorem match?_eq_some {g : Grammar} {t : Text} {tag : Tag} (h : g.match? t = some tag) :
    tag ∈ g.tags ∧ tag.opening <+: t :=
  ⟨List.mem_of_find?_eq_some h, by simpa using List.find?_some h⟩

end Grammar
end Templating
