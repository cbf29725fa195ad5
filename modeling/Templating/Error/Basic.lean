import Templating.Location
import Templating.Version.Parser
import Templating.Encoding.Basic

/-!
# What can go wrong

## What is here

* `IoError` is a refusal of the file system, `BuildError` everything that can stop a template from
  being built.  A build error in an included file is wrapped once for each include tag on the way.
* `BuildError.message` puts an error into words, `BuildError.describe` adds its causes.
* `BuildError.rootCause` and `BuildError.includeChain` take the wrappers off.
-/

set_option autoImplicit false

namespace Templating

/-! ## Refusals of the file system -/

/-- The kinds of refusal. -/
inductive IoKind where
  | notFound
  | permissionDenied
  | isADirectory
  | notADirectory
  | invalidInput
  | invalidFilename
  | invalidData
  deriving DecidableEq, Repr, Inhabited

/-- A refusal, in the words of whoever refused. -/
structure IoError where
  kind : IoKind
  text : String
  deriving DecidableEq, Repr, Inhabited

/-- What was being done to a file when it was refused. -/
inductive FileOperation where
  | read
  | resolve
  | inspect
  | changePermissions
  | remove
  | write
  deriving DecidableEq, Repr

/-- An operation as it is named in messages. -/
def FileOperation.name : FileOperation → String
  | .read => "read"
  | .resolve => "resolve"
  | .inspect => "inspect"
  | .changePermissions => "change permissions of"
  | .remove => "remove"
  | .write => "write"

/-! ## Build errors -/

/-- Why a template cannot be built. -/
inductive BuildError where
  /-- A closing delimiter without an opening one before it. -/
  | missingOpeningBlock (location : Location)
  | missingClosingBlock (expected : Text) (location : Location)
  | unrecognizedBlockTag (tag : Text) (location : Location)
  /-- An include path with a line break in it. -/
  | invalidIncludedFileFormat (location : Location)
  | includedFileNotFound (includePath : Text) (resolved : Path) (location : Location)
  /-- An error in the file that an include tag names. -/
  | failedToIncludeFile (includePath : Text) (location : Location) (source : BuildError)
  /-- An include tag that is still there when a program is made. -/
  | foundUnprocessedInclude (location : Location)
  | missingBlockAttribute (name : Text) (location : Location)
  | attributeMissingClosingQuote (name : Text) (location : Location)
  /-- A file that includes itself; the chain starts at the template and ends with that file. -/
  | cyclicInclude (includePath : Text) (chain : List Path) (location : Location)
  | invalidToolsVersionNumber (value : Text) (cause : Version.ParseError) (location : Location)
  | minimumToolsVersionNotMet (expected found : Version) (feature : Option String)
      (location : Location)
  | io (operation : FileOperation) (path : Path) (cause : IoError)
  | unknownEncoding (path : Path)
  | encoding (path : Path) (encoding : TextEncoding)
  /-- The generated program ran and failed. -/
  | execution (template : Path) (cause : String)
  deriving DecidableEq, Repr

namespace BuildError

/-- The place an error was raised at, if it is tied to one. -/
def location? : BuildError → Option Location
  | missingOpeningBlock l
  | missingClosingBlock _ l
  | unrecognizedBlockTag _ l
  | invalidIncludedFileFormat l
  | includedFileNotFound _ _ l
  | failedToIncludeFile _ l _
  | foundUnprocessedInclude l
  | missingBlockAttribute _ l
  | attributeMissingClosingQuote _ l
  | cyclicInclude _ _ l
  | invalidToolsVersionNumber _ _ l
  | minimumToolsVersionNotMet _ _ _ l => some l
  | io .. | unknownEncoding _ | encoding .. | execution .. => none

/-- An error in words, without its causes. -/
def message : BuildError → String
  | missingOpeningBlock l => s!"found closing block `%>` without an opening block at {l}"
  | missingClosingBlock e l =>
    s!"block opened at {l} is missing its closing `{String.ofList e}`"
  | unrecognizedBlockTag t l => s!"unrecognized block tag `{String.ofList t}` at {l}"
  | invalidIncludedFileFormat l => s!"include path at {l} must not span multiple lines"
  | includedFileNotFound p r l =>
    s!"included file '{String.ofList p}' not found at {l} (resolved to '{r}')"
  | failedToIncludeFile p l _ => s!"failed to include '{String.ofList p}' at {l}"
  | foundUnprocessedInclude l => s!"include block at {l} was never expanded"
  | missingBlockAttribute a l => s!"block at {l} is missing the '{String.ofList a}' attribute"
  | attributeMissingClosingQuote a l =>
    s!"attribute '{String.ofList a}' at {l} is missing its closing quote"
  | cyclicInclude p c l =>
    let chain := " -> ".intercalate (c.map Path.display)
    s!"including '{String.ofList p}' at {l} forms a cycle: {chain}"
  | invalidToolsVersionNumber v _ l => s!"invalid tools version '{String.ofList v}' at {l}"
  | minimumToolsVersionNotMet e f feature l =>
    let suffix := (feature.map fun f => s!" (required by {f})").getD ""
    s!"minimum tools version {e} not met at {l}: found {f}{suffix}"
  | io o p _ => s!"failed to {o.name} '{p}'"
  | unknownEncoding p => s!"could not detect the text encoding of '{p}'"
  | encoding p e => s!"'{p}' is not valid {e} text"
  | execution t _ => s!"generator program for '{t}' failed"

/-- The words of what caused an error, if it was caused by something other than a build error. -/
def cause? : BuildError → Option String
  | invalidToolsVersionNumber _ c _ => some c.message
  | io _ _ c => some c.text
  | execution _ c => some c
  | _ => none

/-- An error in words, followed by every cause below it. -/
def describe : BuildError → String
  | e@(failedToIncludeFile _ _ source) => e.message ++ ": " ++ source.describe
  | e =>
    match e.cause? with
    | some cause => e.message ++ ": " ++ cause
    | none => e.message

/-- The error inside all wrappers. -/
def rootCause : BuildError → BuildError
  | failedToIncludeFile _ _ source => source.rootCause
  | e => e

/-- The include tags that lead to the root cause, outermost first. -/
def includeChain : BuildError → List Location
  | failedToIncludeFile _ l source => l :: source.includeChain
  | _ => []

end BuildError
end Templating
