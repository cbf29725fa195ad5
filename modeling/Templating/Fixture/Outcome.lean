import Templating.Disk.Write
import Templating.Fixture.Basic
import Templating.Text.Quoted

/-!
# Outcomes of fixtures

A fixture passes when the build of its template goes as its settings say.

## What is here

* `Mismatch` is a reason to fail, `Mismatch.reason` puts it into words.
* `Settings.mismatch?` compares a build with what is expected of it.
* `Fixture.run` reads a fixture from a disk and builds its template.
-/

set_option autoImplicit false

namespace Templating

/-! ## Mismatches -/

/-- Why a fixture fails. -/
inductive Mismatch where
  | unreadable (cause : IoKind)
  | frontmatter (cause : Frontmatter.Error)
  | invalidToolsVersion (value : Text) (cause : Version.ParseError)
  /-- The fixture's own path cannot be made absolute. -/
  | unresolved (e : BuildError)
  /-- The build was to fail. -/
  | succeeded (expected : Text)
  | unexpectedError (e : BuildError)
  | otherError (expected : Text) (e : BuildError)
  | otherLine (expected : Nat) (actual : Location)
  /-- The error was to be on a line, but is tied to no place. -/
  | noLocation (expected : Nat)
  | otherText (expected actual : Text)
  /-- The source of the program does not contain some texts. -/
  | missing (texts : List Text) (source : Text)
  deriving DecidableEq, Repr

/-- A reason in words. -/
def Mismatch.reason : Mismatch → String
  | unreadable cause => s!"cannot read file: {(Disk.refusal cause).text}"
  | frontmatter cause => s!"frontmatter error: {cause.message}"
  | invalidToolsVersion value cause =>
    s!"invalid tools_version '{String.ofList value}': {cause.message}"
  | unresolved e => e.message
  | succeeded expected =>
    s!"expected error containing \"{String.ofList expected}\", but the build succeeded"
  | unexpectedError e => s!"unexpected error: {e.describe}"
  | otherError expected e =>
    s!"expected error containing \"{String.ofList expected}\", got: {e.describe}"
  | otherLine expected actual =>
    s!"expected error on line {expected}, but it is on line {actual.line} of {actual.path}"
  | noLocation expected => s!"expected error on line {expected}, but the error has no location"
  | otherText expected actual =>
    "text mismatch\n  expected: " ++ String.ofList (Text.quoted expected) ++ "\n  actual:   "
      ++ String.ofList (Text.quoted actual)
  | missing texts source =>
    let items := texts.map fun t => "  - " ++ String.ofList (Text.quoted t)
    "generator program is missing:\n" ++ "\n".intercalate items ++ "\n  program:\n"
      ++ String.ofList source

namespace Settings

/-- How an error differs from the expected one, whose message has `expected` in it. -/
def errorMismatch? (s : Settings) (expected : Text) (e : BuildError) : Option Mismatch :=
  if !Text.has e.describe.toList expected then some (.otherError expected e)
  else
    match s.line, e.rootCause.location? with
    | none, _ => none
    | some line, some l => if l.line = line then none else some (.otherLine line l)
    | some line, none => some (.noLocation line)

/-- How a program differs from the expected one. -/
def programMismatch? (s : Settings) (p : Program) : Option Mismatch :=
  let absent := s.contains.filter fun t => !Text.has p.source t
  let ofSource := if absent = [] then none else some (.missing absent p.source)
  match s.text with
  | some expected =>
    if p.staticText = expected then ofSource else some (.otherText expected p.staticText)
  | none => ofSource

/-- How the build of a template differs from what is expected of it. -/
def mismatch? (s : Settings) (build : Except BuildError Program) : Option Mismatch :=
  match s.error, build with
  | some expected, .error e => s.errorMismatch? expected e
  | some expected, .ok _ => some (.succeeded expected)
  | none, .error e => some (.unexpectedError e)
  | none, .ok p => s.programMismatch? p

end Settings

/-! ## Runs -/

/-- What became of a fixture; one without a mismatch passes. -/
structure FixtureResult where
  path : Path
  description : Option Text
  mismatch : Option Mismatch
  deriving DecidableEq, Repr

namespace FixtureResult

/-- Whether the fixture passes. -/
def passed (r : FixtureResult) : Bool := r.mismatch.isNone

end FixtureResult

namespace Fixture

/-- The end of the names of fixture files. -/
def suffix : Text := ".test.dswift".toList

/-- What a fixture is called when it has no description: the name of its file without the ends that
mark it as a fixture. -/
def nameOf (p : Path) : Text :=
  match p.fileName? with
  | some n => (Text.dropMarks suffix.reverse n.reverse).reverse
  | none => ['?']

/-- Builds the template of a fixture, which stands in the place of the fixture's own file. -/
def build (f : Fixture) (d : Disk) (cwd : Place) (toolsVersion : Version) (file : Path) :
    Except BuildError Program :=
  let g := d.generator cwd toolsVersion false
  (({ g with files := g.files.put file (.ok (Utf8.encode f.body)) }).program 0 file none).result

/-- The version a fixture's template is built with, if the running one is `running`. -/
def toolsVersion (f : Fixture) (running : Version) : Except Mismatch Version :=
  match f.settings.toolsVersion with
  | none => .ok running
  | some value =>
    match Version.parseTools value with
    | .ok v => .ok v
    | .error cause => .error (.invalidToolsVersion value cause)

/-- How a fixture from the file at `p` fails. -/
def mismatch? (f : Fixture) (d : Disk) (cwd : Place) (running : Version) (p : Path) :
    Option Mismatch :=
  match f.toolsVersion running, (d.generator cwd running false).absolute p with
  | .error m, _ => some m
  | .ok _, .error e => some (.unresolved e)
  | .ok v, .ok file => f.settings.mismatch? (f.build d cwd v file)

/-- Reads the fixture at a path. -/
def read (d : Disk) (cwd : Place) (p : Path) : Except Mismatch Fixture :=
  match d.read cwd p with
  | .error cause => .error (.unreadable cause)
  | .ok bytes =>
    match Utf8.decode? bytes with
    | none => .error (.unreadable .invalidData)
    | some t => (parse t).mapError .frontmatter

/-- Runs the fixture at a path. -/
def run (d : Disk) (cwd : Place) (running : Version) (p : Path) : FixtureResult :=
  match read d cwd p with
  | .error m => ⟨p, none, some m⟩
  | .ok f => ⟨p, f.settings.description, f.mismatch? d cwd running p⟩

end Fixture

/-- What a fixture is called in reports. -/
def FixtureResult.label (r : FixtureResult) : Text := r.description.getD (Fixture.nameOf r.path)

end Templating
