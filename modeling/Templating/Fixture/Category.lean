import Templating.Disk.Basic
import Templating.Fixture.Outcome

/-!
# Categories of fixtures

The fixtures below a directory are sorted into categories: the category of a fixture is the directory
that holds it, seen from where the search began.  What cannot be listed holds no fixtures, and names are
texts, so that every name of a file can be compared with the one a fixture has.

## What is here

* `Disk.filesUnder` finds all files below a path.
* `Category.discover` finds the fixtures below a path, category by category.
* `Category.select` chooses some of the categories, and `Category.unknown` lists requests that choose
  none.
-/

set_option autoImplicit false

namespace Templating

/-- The regular files at or below what a path leads to, as paths that begin with that path. -/
def Disk.filesUnder (d : Disk) (cwd : Place) (root : Path) : List Path :=
  match d.find cwd root with
  | .error _ => []
  | .ok (place, _) =>
    (d.filesBelow place).map fun (names, _) => names.foldl (fun p n => p.join ⟨n⟩) root

/-- Some fixtures with the directory they have in common. -/
structure Category where
  name : Text
  files : List Path
  deriving DecidableEq, Repr

namespace Category

/-- Whether the name of a file is that of a fixture. -/
def isFixture (p : Path) : Bool :=
  match p.fileName? with
  | some n => Fixture.suffix.isSuffixOf n
  | none => false

/-- The category of a fixture found below `root`. -/
def nameOf (root p : Path) : Text :=
  match p.parent? >>= (Path.relativeTo? · root) with
  | some relative => relative.text.map fun c => if c = '\\' then '/' else c
  | none => []

/-- Names in order, character by character. -/
def order (a b : Text) : Ordering := compare (a.map Char.toNat) (b.map Char.toNat)

/-- Sorts files by category; both categories and files are in order. -/
def group (root : Path) (files : List Path) : List Category :=
  let files := files.mergeSort fun p q => (p.order q).isLE
  let names := ((files.map (nameOf root)).mergeSort fun a b => (order a b).isLE).eraseDups
  names.map fun name => ⟨name, files.filter (nameOf root · = name)⟩

/-- The fixtures below a path. -/
def discover (d : Disk) (cwd : Place) (root : Path) : List Category :=
  group root ((d.filesUnder cwd root).filter isFixture)

/-- A category as it is shown. -/
def label (name : Text) : Text := if name = [] then "(root)".toList else name

/-- A request without the slashes at its ends. -/
def trimSlashes (request : Text) : Text :=
  ((request.dropWhile (· = '/')).reverse.dropWhile (· = '/')).reverse

/-- Whether a request asks for a category: for the category itself or for a directory above it. -/
def covers (request name : Text) : Bool :=
  let request := trimSlashes request
  name = request || (request ++ ['/']).isPrefixOf name

/-- The categories that are asked for; no request at all asks for every one. -/
def select (all : List Category) (requests : List Text) : List Category :=
  if requests = [] then all else all.filter fun c => requests.any (covers · c.name)

/-- The requests that ask for none of the categories. -/
def unknown (all : List Category) (requests : List Text) : List Text :=
  requests.filter fun request => !all.any fun c => covers request c.name

end Category
end Templating
