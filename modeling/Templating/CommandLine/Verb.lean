import Templating.Text.Basic

/-!
# Commands by name

* `Verb` are the commands of the program, `Word` are the words that can stand in their place.
-/

set_option autoImplicit false

namespace Templating
namespace CommandLine

/-- What the program can be told to do. -/
inductive Verb where
  /-- Make the program of one template. -/
  | emit
  /-- Build many templates and report errors. -/
  | check
  /-- Run fixtures. -/
  | test
  deriving DecidableEq, Repr

/-- The name of a command. -/
def Verb.name : Verb → String
  | emit => "emit"
  | check => "check"
  | test => "test"

/-- A word in the place of a command. -/
inductive Word where
  | verb (v : Verb)
  | help
  deriving DecidableEq, Repr

/-- The word that an argument spells. -/
def Word.ofText? (t : Text) : Option Word :=
  match String.ofList t with
  | "emit" => some (verb .emit)
  | "check" => some (verb .check)
  | "test" => some (verb .test)
  | "help" => some help
  | _ => none

end CommandLine
end Templating
