import Templating.CommandLine.Verb
import Templating.Encoding.Basic
import Templating.Path.Basic
import Templating.Version.Parser

/-!
# Parameters

Parameters are what can be given on the command line: flags, options with a value, and operands.

## What is here

* `Parameter` with its long and short name; `Parameter.admitted` lists those that a command has.
* `Options` are the parameters that were given; `Options.give` adds one to them.
* `Stop` says why no command is run.
-/

set_option autoImplicit false

namespace Templating
namespace CommandLine

/-! ## Parameters -/

/-- What can be given. -/
inductive Parameter where
  | noColor
  | verbose
  | toolsVersion
  | jobs
  | output
  | encoding
  | readOnly
  | category
  | listCategories
  | help
  | version
  /-- A path, which has no name in front of it. -/
  | operand
  deriving DecidableEq, Repr

namespace Parameter

/-- The name behind two dashes. -/
def long? : Parameter → Option String
  | noColor => some "no-color"
  | verbose => some "verbose"
  | toolsVersion => some "tools-version"
  | jobs => some "jobs"
  | output => some "output"
  | encoding => some "encoding"
  | readOnly => some "read-only"
  | category => some "category"
  | listCategories => some "list-categories"
  | help => some "help"
  | version => some "version"
  | operand => none

/-- The letter behind one dash. -/
def short? : Parameter → Option Char
  | verbose => some 'v'
  | jobs => some 'j'
  | output => some 'o'
  | category => some 'c'
  | help => some 'h'
  | version => some 'V'
  | _ => none

/-- Whether a parameter has a value. -/
def takesValue : Parameter → Bool
  | toolsVersion | jobs | output | encoding | category | operand => true
  | noColor | verbose | readOnly | listCategories | help | version => false

/-- The named parameters that can be given in front of the command and behind every command. -/
def everywhere : List Parameter := [noColor, verbose, toolsVersion, jobs, help]

/-- The named parameters that can be given behind a command, or in front of it if there is none yet. -/
def admitted : Option Verb → List Parameter
  | none => everywhere ++ [version]
  | some .emit => everywhere ++ [output, encoding, readOnly]
  | some .check => everywhere ++ [encoding]
  | some .test => everywhere ++ [category, listCategories]

end Parameter

/-- How many operands there can be behind a command, or in front of it. -/
inductive Room where
  | none
  | one
  | many
  deriving DecidableEq, Repr

/-- The operands that a command has room for. -/
def Room.of : Option Verb → Room
  | .none => none
  | some .emit | some .test => one
  | some .check => many

/-! ## Why no command is run -/

/-- Why no command is run. -/
inductive Stop where
  /-- Help was asked for. -/
  | help
  /-- The version was asked for. -/
  | version
  /-- There is nothing on the command line. -/
  | nothing
  | unknownArgument
  | unknownCommand
  | missingCommand
  | missingArgument
  /-- A value is missing or, where it is a path, empty. -/
  | missingValue
  | invalidValue
  /-- A value is attached to a flag. -/
  | needlessValue
  /-- Something is given twice. -/
  | repeated
  deriving DecidableEq, Repr

/-! ## Options -/

/-- What was given. -/
structure Options where
  noColor : Bool := false
  verbose : Bool := false
  toolsVersion : Option Version := none
  jobs : Option Nat := none
  output : Option Path := none
  encoding : Option TextEncoding := none
  readOnly : Bool := false
  categories : List Text := []
  listCategories : Bool := false
  operands : List Path := []
  deriving DecidableEq, Repr

namespace Options

/-- A number of at most 64 bits; it may have a plus sign. -/
def count? (t : Text) : Option Nat :=
  let digits := if t.head? = some '+' then t.tail else t
  if digits = [] ∨ digits.any (!·.isDigit) then none
  else if Version.value digits < 0x10000000000000000 then some (Version.value digits)
  else none

/-- A path as an argument. -/
def path (t : Text) : Except Stop Path := if t = [] then .error .missingValue else .ok ⟨t⟩

/-- The value that a parameter has when it is given these values; `given` says whether it has been
given before. -/
def single {α : Type} (given : Option α) (read : Text → Except Stop α) :
    List Text → Except Stop (Option α)
  | [] => .error .missingValue
  | value :: _ => if given.isSome then .error .repeated else (read value).map some

/-- A flag that is raised. -/
def raise (given : Bool) : Except Stop Bool := if given then .error .repeated else .ok true

/-- A reader of values that may not be accepted. -/
def accept {α : Type} (read : Text → Option α) (t : Text) : Except Stop α :=
  match read t with
  | some a => .ok a
  | none => .error .invalidValue

/-- What is given once a parameter is given with some values too. -/
def give (o : Options) (p : Parameter) (values : List Text) : Except Stop Options :=
  match p with
  | .help => .error .help
  | .version => .error .version
  | .noColor => (raise o.noColor).map ({ o with noColor := · })
  | .verbose => (raise o.verbose).map ({ o with verbose := · })
  | .readOnly => (raise o.readOnly).map ({ o with readOnly := · })
  | .listCategories => (raise o.listCategories).map ({ o with listCategories := · })
  | .toolsVersion =>
    (single o.toolsVersion (accept fun t => (Version.parseTools t).toOption) values).map
      ({ o with toolsVersion := · })
  | .jobs => (single o.jobs (accept count?) values).map ({ o with jobs := · })
  | .encoding =>
    (single o.encoding (accept fun t => TextEncoding.parse? (String.ofList t)) values).map
      ({ o with encoding := · })
  | .output => (single o.output path values).map ({ o with output := · })
  | .category =>
    if values = [] then .error .missingValue
    else .ok { o with categories := o.categories ++ values }
  | .operand => (values.mapM path).map fun paths => { o with operands := o.operands ++ paths }

end Options
end CommandLine
end Templating
