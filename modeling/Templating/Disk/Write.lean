import Templating.Disk.Basic
import Templating.Generator

/-!
# Writing files

A file is written in two steps: room is made for it by removing what was there, even if that was
read-only, and then the new file is made.  A file that cannot be written in full is not left behind.

## What is here

* `Refusals` are refusals that do not follow from the state of the disk.
* `Disk.makeRoom` and `Disk.fill` are the two steps, `Disk.writeText` is both.
* `Disk.generate` writes the output of a template.
-/

set_option autoImplicit false

namespace Templating

/-- Which operations are refused for reasons of their own, and why. -/
abbrev Refusals := FileOperation → Option IoKind

/-- Nothing is refused. -/
def Refusals.none : Refusals := fun _ => Option.none

namespace Disk

/-! ## Single operations -/

/-- The error of an operation on a file. -/
def failure (operation : FileOperation) (p : Path) (kind : IoKind) : BuildError :=
  .io operation p (refusal kind)

/-- Lets nobody, or everybody, write to what a path leads to, unless that is so already. -/
def setReadOnly (refused : Refusals) (d : Disk) (cwd : Place) (p : Path) (readOnly : Bool) :
    Except BuildError Disk :=
  match refused .inspect, d.find cwd p with
  | some kind, _ => .error (failure .inspect p kind)
  | none, .error kind => .error (failure .inspect p kind)
  | none, .ok (place, node) =>
    if node.permissions.isReadOnly = readOnly then .ok d
    else
      match refused .changePermissions with
      | some kind => .error (failure .changePermissions p kind)
      | none => .ok (d.set place (node.withPermissions (.ofReadOnly readOnly)))

/-- Removes the file a path leads to. -/
def removeFile (refused : Refusals) (d : Disk) (cwd : Place) (p : Path) : Except IoKind Disk :=
  match refused .remove, d.find cwd p with
  | some kind, _ => .error kind
  | none, .error kind => .error kind
  | none, .ok (_, .directory _) => .error .isADirectory
  | none, .ok (place, .file ..) => .ok (d.erase place)

/-- The place at which a path lets a file be written. -/
def target (d : Disk) (cwd : Place) (p : Path) : Except IoKind Place := do
  let place ← d.locate cwd p
  if endsInSlash p then .error .isADirectory
  else
    match d.node? place with
    | some (.directory _) => .error .isADirectory
    | _ => .ok place

/-- Writes a file as a whole; a file that is there keeps its permissions.  A write that is refused for
reasons of its own leaves an empty file behind. -/
def writeFile (refused : Refusals) (d : Disk) (cwd : Place) (p : Path) (contents : Bytes) :
    Except IoKind Unit × Disk :=
  match d.target cwd p with
  | .error kind => (.error kind, d)
  | .ok place =>
    let permissions := ((d.node? place).map Node.permissions).getD .fresh
    match refused .write with
    | some kind => (.error kind, d.set place (.file [] permissions))
    | none => (.ok (), d.set place (.file contents permissions))

/-! ## Replacing a file -/

/-- Removes what a path leads to, if it leads to anything. -/
def makeRoom (refused : Refusals) (d : Disk) (cwd : Place) (p : Path) : Except BuildError Unit × Disk :=
  if d.exists? cwd p then
    match d.setReadOnly refused cwd p false with
    | .error e => (.error e, d)
    | .ok d =>
      match d.removeFile refused cwd p with
      | .error kind => (.error (failure .remove p kind), d)
      | .ok d => (.ok (), d)
  else (.ok (), d)

/-- Makes a new file. -/
def fill (refused : Refusals) (d : Disk) (cwd : Place) (p : Path) (contents : Bytes) (readOnly : Bool) :
    Except BuildError Unit × Disk :=
  match d.writeFile refused cwd p contents with
  | (.error kind, d) => (.error (failure .write p kind), (d.removeFile refused cwd p).toOption.getD d)
  | (.ok (), d) =>
    if readOnly then
      match d.setReadOnly refused cwd p true with
      | .error e => (.error e, d)
      | .ok d => (.ok (), d)
    else (.ok (), d)

/-- Replaces what a path leads to by a text. -/
def writeText (refused : Refusals) (d : Disk) (cwd : Place) (p : Path) (t : Text)
    (encoding : TextEncoding) (readOnly : Bool) : Except BuildError Unit × Disk :=
  match d.makeRoom refused cwd p with
  | (.error e, d) => (.error e, d)
  | (.ok (), d) => d.fill refused cwd p (encoding.encode t) readOnly

/-! ## Output of templates -/

/-- A generator for the templates on a disk. -/
def generator (d : Disk) (cwd : Place) (toolsVersion : Version) (banner : Bool) : Generator :=
  ⟨d.fileSystem, path cwd, toolsVersion, banner⟩

/-- Writes the output of a template; nothing is written unless there is output. -/
def generate (refused : Refusals) (d : Disk) (g : Generator) (cwd : Place) (template destination : Path)
    (encoding : Option TextEncoding) (run : Program → Except String Text) (readOnly : Bool) :
    Except BuildError Unit × Disk :=
  match (g.source 0 template encoding run).result with
  | .error e => (.error e, d)
  | .ok s => d.writeText refused cwd destination s.text s.encoding readOnly

end Disk
end Templating
