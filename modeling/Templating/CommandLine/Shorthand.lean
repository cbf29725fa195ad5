import Templating.CommandLine.Verb

/-!
# Leaving out the command

A command line without a command is meant for `emit`.

* `Shorthand.firstOperand?` is the argument that would be the command.
* `Shorthand.expand` puts `emit` in front where there is an operand but no command.
-/

set_option autoImplicit false

namespace Templating
namespace CommandLine
namespace Shorthand

/-- The options whose value is the next argument. -/
def valueOptions : List Text :=
  ["--tools-version", "-j", "--jobs", "-o", "--output", "--encoding"].map String.toList

/-- The first argument that is neither an option nor the value of one. -/
def firstOperand? : List Text → Option Text
  | [] => none
  | [a] => if a ∈ valueOptions ∨ a.head? = some '-' then none else some a
  | a :: b :: args =>
    if a ∈ valueOptions then firstOperand? args
    else if a.head? = some '-' then firstOperand? (b :: args)
    else some a

/-- The arguments with the command written out; the first argument is the name of the program. -/
def expand : List Text → List Text
  | [] => []
  | program :: args =>
    match firstOperand? args with
    | none => program :: args
    | some a =>
      if (Word.ofText? a).isSome then program :: args
      else program :: Verb.emit.name.toList :: args

end Shorthand
end CommandLine
end Templating
