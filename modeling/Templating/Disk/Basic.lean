import Templating.FileSystem

/-!
# Disks

A disk is a tree of directories and regular files, kept as a list of places.  A place is the row of
names that leads to it from the root directory, which is always there.

## What is here

* `Permissions`, `Node`, `Place` and `Disk`, with `Disk.node?`, `Disk.set` and `Disk.erase`.
* `Disk.find` follows a path to what is there, directory by directory; unlike a folded path, it
  passes through every directory it names.
* `Disk.addFile` and `Disk.addDirectory` build disks; `Disk.fileSystem` is what a build sees of one.

A disk is what one process can see.  A directory that it cannot list is a directory with nothing in it,
which is what the walks over a tree make of it too, and what has a name that is no text is not there.  A
file that it cannot read is there all the same: only reading it fails.
-/

set_option autoImplicit false

namespace Templating

/-! ## Nodes -/

/-- Who may write to a file or in a directory, and whether it can be read here. -/
structure Permissions where
  owner : Bool
  group : Bool
  others : Bool
  /-- Whether the process that works with the disk can read the contents. -/
  readable : Bool := true
  deriving DecidableEq, Repr

namespace Permissions

/-- What new files and directories get. -/
def fresh : Permissions := { owner := true, group := false, others := false }

/-- Nobody may write. -/
def isReadOnly (p : Permissions) : Bool := !(p.owner || p.group || p.others)

/-- Permissions to write that nobody, or everybody, has. -/
def ofReadOnly (readOnly : Bool) : Permissions :=
  { owner := !readOnly, group := !readOnly, others := !readOnly }

@[simp] theorem isReadOnly_ofReadOnly (readOnly : Bool) :
    (ofReadOnly readOnly).isReadOnly = readOnly := by
  cases readOnly <;> rfl

end Permissions

/-- What can be at a place. -/
inductive Node where
  | file (contents : Bytes) (permissions : Permissions)
  | directory (permissions : Permissions)
  deriving DecidableEq, Repr

namespace Node

/-- Who may write to a node. -/
def permissions : Node → Permissions
  | file _ p => p
  | directory p => p

/-- A node with other permissions to write; whether it can be read stays as it is. -/
def withPermissions (p : Permissions) : Node → Node
  | file contents old => file contents { p with readable := old.readable }
  | directory old => directory { p with readable := old.readable }

/-- Whether a node is a directory. -/
def isDirectory : Node → Bool
  | file .. => false
  | directory _ => true

/-- The contents of a file. -/
def contents? : Node → Option Bytes
  | file contents _ => some contents
  | directory _ => none

end Node

/-! ## Disks -/

/-- The names on the way from the root. -/
abbrev Place := List Text

/-- The tree of a disk, without the root. -/
structure Disk where
  nodes : List (Place × Node) := []
  deriving DecidableEq, Repr

namespace Disk

/-- What is at a place. -/
def node? (d : Disk) (place : Place) : Option Node :=
  if place = [] then some (.directory .fresh)
  else (d.nodes.find? fun entry => entry.1 = place).map Prod.snd

/-- The disk without what is at a place. -/
def erase (d : Disk) (place : Place) : Disk :=
  { d with nodes := d.nodes.filter fun entry => entry.1 ≠ place }

/-- The disk with something else at a place. -/
def set (d : Disk) (place : Place) (node : Node) : Disk :=
  { d with nodes := (place, node) :: (d.erase place).nodes }

theorem node?_erase_self (d : Disk) {place : Place} (h : place ≠ []) :
    (d.erase place).node? place = none := by
  rw [node?, if_neg h, Option.map_eq_none_iff, List.find?_eq_none]
  intro entry he
  simpa using (List.mem_filter.1 he).2

theorem node?_erase_of_ne (d : Disk) {place other : Place} (h : other ≠ place) :
    (d.erase place).node? other = d.node? other := by
  rw [node?, node?, erase, List.find?_filter_of_imp]
  intro entry he
  simp [of_decide_eq_true he, h]

theorem node?_set_self (d : Disk) {place : Place} (node : Node) (h : place ≠ []) :
    (d.set place node).node? place = some node := by
  rw [node?, if_neg h, set, List.find?_cons_of_pos (by simp)]
  rfl

theorem node?_set_of_ne (d : Disk) {place other : Place} (node : Node) (h : other ≠ place) :
    (d.set place node).node? other = d.node? other := by
  rw [← node?_erase_of_ne d h, node?, node?, set, List.find?_cons_of_neg (by simpa using Ne.symm h)]

/-- The absolute path of a place. -/
def path (place : Place) : Path := Path.ofComponents (.root :: place.map .name)

/-! ## Following paths -/

/-- The refusal of a kind in the words of the operating system. -/
def refusal (kind : IoKind) : IoError :=
  ⟨kind,
    match kind with
    | .notFound => "No such file or directory (os error 2)"
    | .permissionDenied => "Permission denied (os error 13)"
    | .isADirectory => "Is a directory (os error 21)"
    | .notADirectory => "Not a directory (os error 20)"
    | .invalidFilename => "File name too long (os error 36)"
    | .invalidInput => "file name contained an unexpected NUL byte"
    | .invalidData => "stream did not contain valid UTF-8"⟩

/-- The longest name and the longest path, in bytes. -/
def maxName : Nat := 255

@[inherit_doc maxName]
def maxPath : Nat := 4095

/-- The place that some segments lead to.  All that is passed through must be a directory. -/
def walk (d : Disk) : Place → List Text → Except IoKind Place
  | here, [] => .ok here
  | here, segment :: segments =>
    if segment = [] then walk d here segments
    else
      match d.node? here with
      | none => .error .notFound
      | some (.file ..) => .error .notADirectory
      | some (.directory _) =>
        if segment = ['.'] then walk d here segments
        else if segment = ['.', '.'] then walk d here.dropLast segments
        else if maxName < Text.size segment then .error .invalidFilename
        else walk d (here ++ [segment]) segments

/-- The place a path leads to from the working directory `cwd`, whether anything is there or not. -/
def locate (d : Disk) (cwd : Place) (p : Path) : Except IoKind Place :=
  if p.text = [] then .error .notFound
  else if '\x00' ∈ p.text then .error .invalidInput
  else if maxPath < Text.size p.text then .error .invalidFilename
  else d.walk (if p.isAbsolute then [] else cwd) p.segments

/-- Whether a path ends with a slash and so can only mean a directory. -/
def endsInSlash (p : Path) : Bool := p.text.getLast? = some '/'

/-- What a path leads to, and where it is. -/
def find (d : Disk) (cwd : Place) (p : Path) : Except IoKind (Place × Node) := do
  let place ← d.locate cwd p
  match d.node? place with
  | none => .error .notFound
  | some node =>
    if endsInSlash p && !node.isDirectory then .error .notADirectory else .ok (place, node)

/-- Whether a path leads to anything. -/
def exists? (d : Disk) (cwd : Place) (p : Path) : Bool := (d.find cwd p).isOk

/-- Whether a path leads to a regular file. -/
def isFile (d : Disk) (cwd : Place) (p : Path) : Bool :=
  match d.find cwd p with
  | .ok (_, .file ..) => true
  | _ => false

/-- What reading a file with these permissions comes to. -/
def reading (contents : Bytes) (permissions : Permissions) : Except IoKind Bytes :=
  if permissions.readable then .ok contents else .error .permissionDenied

/-- The contents of the file a path leads to. -/
def read (d : Disk) (cwd : Place) (p : Path) : Except IoKind Bytes :=
  match d.find cwd p with
  | .ok (_, .file contents permissions) => reading contents permissions
  | .ok (_, .directory _) => .error .isADirectory
  | .error kind => .error kind

/-! ## Building and viewing disks -/

/-- The disk with a directory at a place, and with those on the way to it. -/
def addDirectory (d : Disk) (place : Place) : Disk :=
  (List.range (place.length + 1)).foldl
    (fun d n =>
      if (d.node? (place.take n)).isSome then d else d.set (place.take n) (.directory .fresh)) d

/-- The disk with a file at a place, and with the directories on the way to it.  A file that is there
already keeps its permissions unless others are given. -/
def addFile (d : Disk) (place : Place) (contents : Bytes) (permissions : Option Permissions) :
    Disk :=
  let d := d.addDirectory place.dropLast
  d.set place (.file contents (permissions.getD (((d.node? place).map Node.permissions).getD .fresh)))

/-- The regular files at or below a place, each with the names that lead there from it. -/
def filesBelow (d : Disk) (place : Place) : List (Place × Bytes × Permissions) :=
  d.nodes.filterMap fun entry =>
    match entry.2 with
    | .file contents permissions =>
      if place.isPrefixOf entry.1 then
        some (entry.1.drop place.length, contents, permissions)
      else none
    | .directory _ => none

/-- What a build sees of a disk: the regular files, by their absolute paths. -/
def fileSystem (d : Disk) : FileSystem where
  entries := (d.filesBelow []).map fun (place, contents, permissions) =>
    (path place, (reading contents permissions).mapError refusal)
  missing p :=
    match d.read [] p with
    | .error kind => refusal kind
    | .ok _ => refusal .notFound

end Disk
end Templating
