import Templating.CommandLine.Run

/-!
# The command line

The program loads what a command line can touch into a disk, runs it there, prints what there is to
print, and writes the files that have changed.
-/

set_option autoImplicit false

namespace Templating
namespace CommandLine

/-! ## What to load -/

/-- The texts that a file may be read as: in any encoding, and without the settings of a fixture. -/
def readings (bytes : Bytes) : List Text :=
  let texts := [TextEncoding.utf8, .utf16le, .utf16be].filterMap fun e => e.decode? bytes
  texts ++ texts.filterMap fun t => (Fixture.parse t).toOption.map Fixture.body

/-- The files that a file at an absolute path may include. -/
def references (file : Path) (bytes : Bytes) : List Path :=
  (readings bytes).flatMap fun t =>
    match IncludeTag.findAll (Document.ofSource file t) with
    | .ok tags => tags.map IncludeTag.target
    | .error _ => []

/-- The paths that a command names. -/
def Command.paths : Command → List Path
  | emit template output _ _ => template :: output.toList
  | check paths _ => paths
  | test p _ _ => [p]

/-- The place of a folded absolute path. -/
def placeOf (p : Path) : Place := p.components.filterMap fun c =>
  match c with
  | .name n => some n
  | _ => none

/-- The paths of the directories on the way to a path. -/
def waypoints (p : Path) : List Path :=
  let segments := p.segments
  (List.range (segments.length + 1)).map fun n => ⟨['/'].intercalate (segments.take n)⟩

/-! ## Loading -/

/-- Who may write to a file that was loaded.  That cannot be seen, and so it is nothing that a new file
has: a file that is written anew is always saved. -/
def loaded : Permissions := .ofReadOnly false

/-- What there is at a path, if there is anything. -/
def typeOf? (p : Path) : IO (Option IO.FS.FileType) := do
  match ← (do (← IO.FS.realPath p.display).metadata).toBaseIO with
  | .error _ => return none
  | .ok metadata => return some metadata.type

/-- Loads a file and all that it includes.  Of a file that cannot be read, only that it is there. -/
partial def loadFile (d : Disk) (file : Path) : IO Disk := do
  if (d.node? (placeOf file)).isSome then return d
  match ← (IO.FS.readBinFile file.display).toBaseIO with
  | .ok bytes =>
    let d := d.addFile (placeOf file) bytes.toList (some loaded)
    (references file bytes.toList).foldlM loadFile d
  | .error _ =>
    if (← typeOf? file) == some .file then
      return d.addFile (placeOf file) [] (some { loaded with readable := false })
    else return d

/-- Loads what is at an absolute path: a file, or a directory with all that is below it, which is nothing
if it cannot be listed. -/
partial def load (d : Disk) (p : Path) : IO Disk := do
  match ← (do (← IO.FS.realPath p.display).readDir).toBaseIO with
  | .ok entries =>
    let d := d.addDirectory (placeOf p)
    entries.toList.foldlM (fun d entry => load d (p.join (Path.ofString entry.fileName))) d
  | .error _ =>
    if (← typeOf? p) == some .dir then return d.addDirectory (placeOf p) else loadFile d p

/-- Loads the directories on the way to a path. -/
def loadWay (cwd : Path) (d : Disk) (p : Path) : IO Disk :=
  (waypoints (cwd.join p)).foldlM (fun d q => do
    match ← (do (← IO.FS.realPath q.display).readDir).toBaseIO with
    | .error _ => return d
    | .ok _ => return d.addDirectory (placeOf q.fold)) d

/-- Loads all that a command can touch. -/
def loadCommand (cwd : Path) (c : Command) : IO Disk :=
  c.paths.foldlM (fun d p => do load (← loadWay cwd d p) (cwd.join p).fold)
    (({} : Disk).addDirectory (placeOf cwd))

/-! ## Saving -/

/-- The rights of a file. -/
def accessRights (readOnly : Bool) : IO.FileRight :=
  let others : IO.AccessRight := { read := true }
  { user := { read := true, write := !readOnly }, group := others, other := others }

/-- Writes the files of a disk that are not the same on another one. -/
def save (before after : Disk) : IO Unit := do
  for (place, contents, permissions) in after.filesBelow [] do
    if before.node? place ≠ some (.file contents permissions) then
      let file := (Disk.path place).display
      discard (IO.FS.removeFile file).toBaseIO
      IO.FS.writeBinFile file contents.toByteArray
      if permissions.isReadOnly then IO.setAccessRights file (accessRights true)

/-! ## The program -/

/-- Whether the terminal shows colours. -/
def terminalColor : IO Bool := do
  let terminal ← IO.getEnv "TERM"
  return terminal.any (· ≠ "dumb") && (← IO.getEnv "NO_COLOR").isNone

/-- Runs a command line, whose first argument is the name of the program. -/
def perform (args : List Text) : IO UInt32 := do
  let cwd := (Path.ofString (← IO.currentDir).toString).fold
  let d ←
    match Invocation.parse (Shorthand.expand args).tail with
    | .ok i => loadCommand cwd i.command
    | .error _ => pure {}
  let outcome := run { workingDirectory := placeOf cwd, color := ← terminalColor } d args
  save d outcome.disk
  IO.print (String.ofList outcome.stdout)
  IO.eprint (String.ofList outcome.stderr)
  return outcome.exitCode.toUInt32

end CommandLine
end Templating

/-- Runs the program with its arguments. -/
def main (args : List String) : IO UInt32 :=
  Templating.CommandLine.perform ("dswift".toList :: args.map String.toList)
