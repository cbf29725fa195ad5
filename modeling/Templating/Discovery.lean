import Templating.Fixture.Category

/-!
# Finding templates

Templates are named one by one, or by directories that hold them.  A file that is named is a template
whatever it is called; below a directory the name decides.  A directory that cannot be listed holds
nothing (`Disk`), so no search fails because of it.

* `Discovery.isTemplate` tells the templates among the files of a directory.
* `Discovery.templates` finds the templates that some paths name, in order and each of them once.
-/

set_option autoImplicit false

namespace Templating
namespace Discovery

/-- The extension of templates. -/
def extension : Text := "dswift".toList

/-- Whether a file that was found in a directory is a template; fixtures are not. -/
def isTemplate (p : Path) : Bool := !Category.isFixture p && p.extension? = some extension

/-- The templates that one path names: a file as it is, and the templates below a directory. -/
def named (d : Disk) (cwd : Place) (p : Path) : List Path :=
  if d.isFile cwd p then [p] else (d.filesUnder cwd p).filter isTemplate

/-- Paths without those that lead to the same place as one before them. -/
def distinct : List Path → List Path
  | [] => []
  | p :: ps => p :: (distinct ps).filter fun q => !Path.Same p q

/-- The templates that some paths name. -/
def templates (d : Disk) (cwd : Place) (paths : List Path) : List Path :=
  distinct ((paths.flatMap (named d cwd)).mergeSort fun p q => (p.order q).isLE)

end Discovery
end Templating
