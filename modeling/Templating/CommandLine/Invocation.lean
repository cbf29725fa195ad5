import Templating.CommandLine.Reader

/-!
# Invocations

An invocation is a command with everything that was given for it.

* `Command` and `Invocation`; `Invocation.parse` reads the arguments behind the program's name.
-/

set_option autoImplicit false

namespace Templating
namespace CommandLine

/-- A command with its operands and options. -/
inductive Command where
  | emit (template : Path) (output : Option Path) (encoding : Option TextEncoding) (readOnly : Bool)
  | check (paths : List Path) (encoding : Option TextEncoding)
  | test (path : Path) (categories : List Text) (listCategories : Bool)
  deriving DecidableEq, Repr

/-- What the program is told to do. -/
structure Invocation where
  noColor : Bool
  verbose : Bool
  jobs : Option Nat
  toolsVersion : Option Version
  command : Command
  deriving DecidableEq, Repr

/-- The command that options give, if nothing is missing: there must be an operand, and a file that is
to be read-only must be named. -/
def Verb.command (v : Verb) (o : Options) : Except Stop Command :=
  match v, o.operands with
  | _, [] => .error .missingArgument
  | .emit, template :: _ =>
    if o.readOnly ∧ o.output = none then .error .missingArgument
    else .ok (.emit template o.output o.encoding o.readOnly)
  | .check, paths => .ok (.check paths o.encoding)
  | .test, path :: _ => .ok (.test path o.categories o.listCategories)

namespace Invocation

/-- The invocation of a command; what is given behind the command counts for more than what is given in
front of it. -/
def ofOptions (front behind : Options) (command : Command) : Invocation where
  noColor := front.noColor || behind.noColor
  verbose := front.verbose || behind.verbose
  jobs := behind.jobs.or front.jobs
  toolsVersion := behind.toolsVersion.or front.toolsVersion
  command := command

/-- Help on the command that words lead to; no command has other commands below it. -/
def helpOn : List Text → Stop
  | [] => .help
  | [word] => if (Word.ofText? word).isSome then .help else .unknownCommand
  | _ => .unknownCommand

/-- Reads the arguments behind a command.  They are checked before what stands in front of it. -/
def behind (front : Reader) (v : Verb) (args : List Text) : Except Stop Invocation := do
  let r ← Reader.steps { verb := some v } args
  let options ← r.finish
  let command ← v.command options
  let frontOptions ← front.finish
  return ofOptions frontOptions options command

/-- Why no command is run when there is none. -/
def withoutVerb (front : Reader) : Except Stop Invocation := do
  let options ← front.finish
  throw (if options = {} then .nothing else .missingCommand)

/-- Reads arguments from the front on, until there is a command. -/
def parseFrom (front : Reader) : List Text → Except Stop Invocation
  | [] => withoutVerb front
  | a :: args =>
    let word := if front.separated || front.awaiting then none else Word.ofText? a
    match word with
    | some (.verb v) => behind front v args
    | some .help => .error (helpOn args)
    | none =>
      match front.step a with
      | .error stop => .error stop
      | .ok front => parseFrom front args

/-- Reads the arguments behind the program's name. -/
def parse (args : List Text) : Except Stop Invocation := parseFrom { verb := none } args

end Invocation
end CommandLine
end Templating
