import Templating.Include.Expansion
import Templating.Program.Basic

/-!
# From templates to programs

## What is here

* `Generator` holds the settings of a build; `Generator.expand` reads a template and expands it,
  `Generator.program` makes its program and `Generator.source` runs that.
* `Generator.batch` makes the programs of many templates, each on its own.
* `Logged` pairs a result with the files that were read for it.
* `ClassHash` is the hash that the classes of programs are named by.
-/

set_option autoImplicit false

namespace Templating

/-- A result, and the files read for it in order, whether it succeeded or not. -/
structure Logged (α : Type) where
  result : Except BuildError α
  reads : List Path

/-- A hash of the path of a template and the number of its build.  The names of classes are made of it,
and nothing else depends on which hash it is. -/
class ClassHash where
  hash : Path → Nat → UInt64

/-- Takes one more number into a hash. -/
def ClassHash.mix (h : UInt64) (n : Nat) : UInt64 := (h ^^^ n.toUInt64) * 1099511628211

/-- The hash of runs that are given no other.  A step is one-to-one, so the builds of one template never
share a hash. -/
instance ClassHash.standard : ClassHash where
  hash path serial := mix (path.text.foldl (fun h c => mix h c.toNat) 14695981039346656037) serial

/-- What all builds of a run have in common. -/
structure Generator where
  files : FileSystem
  /-- The directory that relative paths start from. -/
  workingDirectory : Path
  /-- The version of the running tool. -/
  toolsVersion : Version
  /-- Whether generated files begin with a banner. -/
  banner : Bool
  [classHash : ClassHash]

/-- A template with its include tags expanded. -/
structure ExpandedTemplate where
  path : Path
  document : Document
  encoding : TextEncoding

/-- The output of a template. -/
structure GeneratedSource where
  text : Text
  encoding : TextEncoding
  deriving DecidableEq, Repr

namespace Generator

/-! ## One template -/

/-- What includes are expanded with. -/
def surroundings (g : Generator) : Surroundings := ⟨g.files, g.toolsVersion⟩

/-- The folded absolute form of a path. -/
def absolute (g : Generator) (p : Path) : Except BuildError Path :=
  match p.absolute? g.workingDirectory with
  | some p => .ok p
  | none => .error (.io .resolve p ⟨.invalidInput, "cannot make an empty path absolute"⟩)

/-- Reads a template and expands its include tags. -/
def expand (g : Generator) (template : Path) (encoding : Option TextEncoding) :
    Logged ExpandedTemplate :=
  match g.absolute template with
  | .error e => ⟨.error e, []⟩
  | .ok path =>
    match g.files.readText path encoding with
    | .error e => ⟨.error e, [path]⟩
    | .ok (text, encoding) =>
      let (result, x) := Expander.expand g.surroundings path text { reads := [path] }
      ⟨result.map (⟨path, ·, encoding⟩), x.reads⟩

/-- The name of the class of the program of a template that is built as number `serial` of a run. -/
def className (g : Generator) (template : Path) (serial : Nat) : Text :=
  "DSwiftGenerator_".toList ++ Text.hexPadded 16 (g.classHash.hash template serial).toNat

/-- What the program of an expanded template is made with. -/
def context (g : Generator) (serial : Nat) (t : ExpandedTemplate) : EmitContext where
  className := g.className t.path serial
  templateName := t.path.fileName?.getD []
  encoding := t.encoding
  toolsVersion := g.toolsVersion
  banner := g.banner

/-- Makes the program of a template; `serial` keeps its name apart from others of the run. -/
def program (g : Generator) (serial : Nat) (template : Path) (encoding : Option TextEncoding) :
    Logged Program :=
  let expanded := g.expand template encoding
  ⟨expanded.result.bind fun t => Program.ofDocument (g.context serial t) t.document, expanded.reads⟩

/-- Makes the program of a template and runs it; `run` gives what it puts out, or why it failed. -/
def source (g : Generator) (serial : Nat) (template : Path) (encoding : Option TextEncoding)
    (run : Program → Except String Text) : Logged GeneratedSource :=
  let built := g.program serial template encoding
  let result : Except BuildError GeneratedSource :=
    built.result.bind fun p =>
      match run p with
      | .ok text => .ok ⟨text, p.encoding⟩
      | .error cause => .error (.execution p.template cause)
  ⟨result, built.reads⟩

/-! ## Many templates -/

/-- Makes the programs of some templates, numbered from `serial` on. -/
def batchFrom (g : Generator) (encoding : Option TextEncoding) : Nat → List Path → List (Logged Program)
  | _, [] => []
  | serial, template :: templates =>
    g.program serial template encoding :: batchFrom g encoding (serial + 1) templates

/-- Makes the programs of some templates, in order. -/
def batch (g : Generator) (encoding : Option TextEncoding) (templates : List Path) :
    List (Logged Program) := g.batchFrom encoding 0 templates

end Generator
end Templating
