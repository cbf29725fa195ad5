import Templating.Path.Basic

/-!
# Folding `.` and `..`

Folding a path drops every `.` and lets every `..` take back the name before it, without a look at
the disk.  At the root a `..` has nothing to take back and is dropped; at the front of a relative
path it stays.

## What is here

* `Path.fold` is the folded form, computed with a stack of components.
* `Path.resolve` finds what an include tag refers to; `Path.absolute?` makes a path absolute.
-/

set_option autoImplicit false

namespace Templating
namespace Path

/-- One step of the fold, on the components so far with the last one first. -/
def foldStep : List Component → Component → List Component
  | stack, .here => stack
  | .name _ :: stack, .up => stack
  | .root :: stack, .up => .root :: stack
  | stack, c => c :: stack

/-- The components that remain when each `..` has taken back the name before it. -/
def foldComponents (cs : List Component) : List Component := (cs.foldl foldStep []).reverse

/-- The folded form of a path. -/
def fold (p : Path) : Path := ofComponents (foldComponents p.components)

/-- What a reference in the file at `including` names: it is looked up from that file's directory. -/
def resolve (including reference : Path) : Path :=
  fold (join (including.parent?.getD ⟨[]⟩) reference)

/-- The folded absolute form of a path, seen from the working directory `cwd`; the empty path has
none. -/
def absolute? (p cwd : Path) : Option Path :=
  if p.text = [] then none else some (fold (join cwd p))

end Path
end Templating
