import Templating.CommandLine.Display
import Templating.CommandLine.Invocation
import Templating.CommandLine.Shorthand
import Templating.Discovery
import Templating.Fixture.Report

/-!
# Running commands

A run takes a disk and arguments and leaves a disk, an exit code and what was printed.

## What is here

* `Surface` is where a run takes place, `Outcome` what it leaves behind.
* `runEmit`, `runCheck` and `runTest` run the three commands; `run` runs a command line.
-/

set_option autoImplicit false

namespace Templating
namespace CommandLine

/-- Where a run takes place. -/
structure Surface where
  workingDirectory : Place
  /-- Whether the terminal shows colours. -/
  color : Bool := false
  /-- Operations that are refused for reasons of their own. -/
  refused : Refusals := Refusals.none
  /-- How much of a report can be printed, if that is limited. -/
  limit : Option Printer.Limit := none

/-- What a run leaves behind. -/
structure Outcome where
  exitCode : Nat
  stdout : Text := []
  stderr : Text := []
  disk : Disk
  deriving DecidableEq, Repr

/-! ## Messages -/

/-- A line of a message. -/
def messageLine (s : String) : Text := s.toList ++ ['\n']

/-- An error as it is reported: the words of its root cause, then notes and an empty line. -/
def errorReport (files : FileSystem) (e : BuildError) : Text :=
  let d := display files e
  messageLine ("error: " ++ d.message)
    ++ (d.notes.flatMap fun note => messageLine (" = " ++ note)) ++ messageLine ""

/-- What is said about fixtures that were looked for in vain. -/
def noFixtures (p : Path) : Text := messageLine s!"no {String.ofList Fixture.suffix} files found in {p}"

/-! ## Single templates -/

/-- Makes the program of a template and prints it or writes it to a file. -/
def runEmit (s : Surface) (d : Disk) (g : Generator) (template : Path) (output : Option Path)
    (encoding : Option TextEncoding) (readOnly : Bool) : Outcome :=
  match (g.program 0 template encoding).result, output with
  | .error e, _ => { exitCode := 1, stderr := errorReport g.files e, disk := d }
  | .ok p, none => { exitCode := 0, stdout := p.source, disk := d }
  | .ok p, some file =>
    match d.writeText s.refused s.workingDirectory file p.source .utf8 readOnly with
    | (.error e, d) => { exitCode := 1, stderr := errorReport g.files e, disk := d }
    | (.ok _, d) =>
      { exitCode := 0, stderr := messageLine s!"ok: wrote {file} for {template}", disk := d }

/-! ## Many templates -/

/-- What is reported on a template. -/
def templateReport (files : FileSystem) (template : Path) (r : Logged Program) : Text :=
  match r.result with
  | .ok _ => messageLine s!"ok: {template}"
  | .error e => errorReport files e

/-- The number of builds that fail. -/
def failures (results : List (Logged Program)) : Nat := results.countP fun r => !r.result.isOk

/-- The outcome of a check, once the builds of its templates have come to some results. -/
def checked (d : Disk) (files : FileSystem) (templates : List Path) (results : List (Logged Program)) :
    Outcome :=
  let failed := failures results
  let passed := templates.length - failed
  if templates = [] then
    { exitCode := 1, stderr := messageLine "error: no .dswift templates found", disk := d }
  else
    { exitCode := if failed = 0 then 0 else 1
      stderr := (templates.zipWith (templateReport files) results).flatten ++ messageLine "" ++
        messageLine s!"checked {templates.length} template(s): {passed} ok, {failed} failed"
      disk := d }

/-- Builds all templates that some paths name. -/
def runCheck (s : Surface) (d : Disk) (g : Generator) (paths : List Path)
    (encoding : Option TextEncoding) : Outcome :=
  let templates := Discovery.templates d s.workingDirectory paths
  checked d g.files templates (g.batch encoding templates)

/-! ## Fixtures -/

/-- Lists the categories of fixtures below a path. -/
def runList (s : Surface) (d : Disk) (p : Path) : Outcome :=
  let categories := Category.discover d s.workingDirectory p
  let entry (c : Category) : Text :=
    messageLine s!"  {String.ofList (Category.label c.name)} ({c.files.length} tests)"
  let stderr :=
    if d.isFile s.workingDirectory p then messageLine "(single file, no categories)"
    else if categories = [] then noFixtures p
    else messageLine "available categories:" ++ categories.flatMap entry
  { exitCode := 0, stderr, disk := d }

/-- What is said about a request that asks for no category. -/
def warning (all : List Category) (request : Text) : Text :=
  let available := ", ".intercalate (all.map fun c => String.ofList (Category.label c.name))
  messageLine
    s!"warning: category '{String.ofList (Category.trimSlashes request)}' not found (available: {available})"

/-- Runs the fixtures of some categories; `warnings` is what is said before.  A run whose report breaks
off says why, and has not gone well. -/
def runCategories (s : Surface) (d : Disk) (running : Version) (headings color : Bool)
    (warnings : Text) (categories : List Category) : Outcome :=
  let print (r : Report) := Printer.print s.limit (r.render color)
  let test := Fixture.run d s.workingDirectory running
  match (Report.printRun print headings test categories).output with
  | (.ok run, report) =>
    { exitCode := if Report.failedOf run = [] then 0 else 1, stderr := warnings ++ report, disk := d }
  | (.error cause, report) =>
    { exitCode := 1
      stderr := warnings ++ report ++ messageLine s!"error: cannot write test report: {cause}"
      disk := d }

/-- Runs the fixture at a path, or those below it in the categories that are asked for. -/
def runTest (s : Surface) (d : Disk) (running : Version) (color : Bool) (p : Path)
    (requests : List Text) : Outcome :=
  if d.isFile s.workingDirectory p then
    runCategories s d running false color [] [⟨[], [p]⟩]
  else
    let all := Category.discover d s.workingDirectory p
    let selected := Category.select all requests
    let warnings := (Category.unknown all requests).flatMap (warning all)
    if all = [] then { exitCode := 1, stderr := noFixtures p, disk := d }
    else if selected = [] then
      { exitCode := 1, stderr := warnings ++ messageLine "no matching categories found", disk := d }
    else runCategories s d running true color warnings selected

/-! ## Command lines -/

/-- The words of a command line that asks for help, or needs it. -/
def usage : Text :=
  ["Dynamic Swift template preprocessor",
    "",
    "Usage: dswift [OPTIONS] <COMMAND>",
    "       dswift [OPTIONS] <TEMPLATE>",
    "",
    "Commands:",
    "  emit   Print or write the generator program of a template",
    "  check  Build every template under the given paths and report errors",
    "  test   Run .test.dswift fixture files",
    "  help   Print this message",
    "",
    "Options:",
    "      --no-color                 Disable colored error output",
    "  -v, --verbose                  Log debug events",
    "      --tools-version <VERSION>  Tools version to check templates against",
    "  -j, --jobs <JOBS>              Worker threads for building many templates",
    "  -h, --help                     Print help",
    "  -V, --version                  Print version"].flatMap messageLine

/-- Why no command is run, in words. -/
def Stop.message : Stop → String
  | .help | .version | .nothing => ""
  | .unknownArgument => "unexpected argument found"
  | .unknownCommand => "unrecognized subcommand"
  | .missingCommand => "a subcommand is required but one was not provided"
  | .missingArgument => "a required argument was not provided"
  | .missingValue => "a value is required but none was supplied"
  | .invalidValue => "a value is invalid"
  | .needlessValue => "a flag takes no value"
  | .repeated => "an argument cannot be used multiple times"

/-- The outcome when no command is run: what was asked for is no error. -/
def stopped (d : Disk) (stop : Stop) : Outcome :=
  match stop with
  | .help => { exitCode := 0, stdout := usage, disk := d }
  | .version => { exitCode := 0, stdout := messageLine s!"dswift {Version.current}", disk := d }
  | .nothing => { exitCode := 2, stderr := usage, disk := d }
  | stop => { exitCode := 2, stderr := messageLine ("error: " ++ stop.message), disk := d }

/-- Runs an invocation. -/
def Invocation.run (i : Invocation) (s : Surface) (d : Disk) : Outcome :=
  let running := i.toolsVersion.getD Version.current
  let g := d.generator s.workingDirectory running true
  match i.command with
  | .emit template output encoding readOnly => runEmit s d g template output encoding readOnly
  | .check paths encoding => runCheck s d g paths encoding
  | .test p _ true => runList s d p
  | .test p categories false => runTest s d running (s.color && !i.noColor) p categories

/-- Runs a command line, whose first argument is the name of the program. -/
def run (s : Surface) (d : Disk) (args : List Text) : Outcome :=
  match Invocation.parse (Shorthand.expand args).tail with
  | .error stop => stopped d stop
  | .ok i => i.run s d

end CommandLine
end Templating
