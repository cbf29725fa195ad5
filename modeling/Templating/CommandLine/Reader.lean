import Templating.CommandLine.Parameter

/-!
# Reading arguments

Arguments are read one after the other.  A value may stand in the argument behind its option, so the
option waits until the next argument has been seen, and only then is it checked.

## What is here

* `Argument` is what an argument looks like.
* `Reader` is what has been read in front of a command or behind it; `Reader.step` reads one more
  argument and `Reader.finish` ends.
-/

set_option autoImplicit false

namespace Templating
namespace CommandLine

/-! ## Arguments -/

/-- The shape of an argument. -/
inductive Argument where
  /-- Two dashes, behind which all arguments are operands. -/
  | separator
  | long (name : Text) (value : Option Text)
  /-- Letters behind one dash. -/
  | short (letters : Text)
  /-- No dash in front, or nothing behind it. -/
  | plain
  deriving DecidableEq, Repr

/-- The shape of an argument. -/
def Argument.ofText (t : Text) : Argument :=
  match t with
  | ['-', '-'] => separator
  | '-' :: '-' :: rest =>
    match Text.cut? ['='] rest with
    | some (name, value) => long name (some value)
    | none => long rest none
  | '-' :: c :: rest => short (c :: rest)
  | _ => plain

/-! ## The reader -/

/-- What has been read of the arguments in front of a command, or behind it. -/
structure Reader where
  /-- The command that the arguments stand behind. -/
  verb : Option Verb
  options : Options := {}
  /-- A parameter with its values so far, which still have to be checked. -/
  pending : Option (Parameter × List Text) := none
  /-- Whether two dashes have been read. -/
  separated : Bool := false
  deriving DecidableEq, Repr

namespace Reader

/-- Whether an option waits for its value. -/
def awaiting (r : Reader) : Bool :=
  match r.pending with
  | some (_, []) => !r.separated
  | _ => false

/-- The parameter with a long name. -/
def byName? (r : Reader) (name : Text) : Option Parameter :=
  (Parameter.admitted r.verb).find? fun p => p.long? = some (String.ofList name)

/-- The parameter with a letter. -/
def byLetter? (r : Reader) (c : Char) : Option Parameter :=
  (Parameter.admitted r.verb).find? fun p => p.short? = some c

/-- Checks what is pending. -/
def settle (r : Reader) : Except Stop Reader :=
  match r.pending with
  | none => .ok r
  | some (p, values) =>
    (r.options.give p values).map fun options => { r with options, pending := none }

/-- Takes a parameter with all its values. -/
def give (r : Reader) (p : Parameter) (values : List Text) : Except Stop Reader := do
  let r ← r.settle
  let options ← r.options.give p values
  return { r with options }

/-- Takes a parameter whose values are still to come. -/
def expect (r : Reader) (p : Parameter) (values : List Text) : Except Stop Reader := do
  let r ← r.settle
  return { r with pending := some (p, values) }

/-- Reads a long name. -/
def long (r : Reader) (name : Text) (value : Option Text) : Except Stop Reader :=
  match r.byName? name, value with
  | none, _ => .error .unknownArgument
  | some p, none => if p.takesValue then r.expect p [] else r.give p []
  | some p, some value => if p.takesValue then r.give p [value] else .error .needlessValue

/-- Reads letters.  What follows the letter of an option is its value, with or without an equals
sign. -/
def short (r : Reader) : Text → Except Stop Reader
  | [] => .ok r
  | c :: letters =>
    match r.byLetter? c with
    | none => .error .unknownArgument
    | some p =>
      if p.takesValue then
        match letters with
        | [] => r.expect p []
        | '=' :: value => r.give p [value]
        | value => r.give p [value]
      else
        match r.give p [] with
        | .error stop => .error stop
        | .ok r => r.short letters

/-- The operands read so far, checked or not. -/
def operandCount (r : Reader) : Nat :=
  r.options.operands.length +
    match r.pending with
    | some (.operand, values) => values.length
    | _ => 0

/-- Why there is no place for an operand. -/
def surplus (r : Reader) (t : Text) : Stop :=
  match r.verb with
  | some _ => .unknownArgument
  | none => if r.separated ∧ (Word.ofText? t).isSome then .unknownArgument else .unknownCommand

/-- Reads an operand. -/
def operand (r : Reader) (t : Text) : Except Stop Reader :=
  match Room.of r.verb, r.pending with
  | .many, some (.operand, values) => .ok { r with pending := some (.operand, values ++ [t]) }
  | .many, _ => r.expect .operand [t]
  | .one, _ => if r.operandCount = 0 then r.expect .operand [t] else .error (r.surplus t)
  | .none, _ => .error (r.surplus t)

/-- Reads an argument without dashes: a value that is waited for, or an operand. -/
def plain (r : Reader) (t : Text) : Except Stop Reader :=
  match r.pending with
  | some (p, []) => .ok { r with pending := some (p, [t]) }
  | _ => r.operand t

/-- Reads one argument. -/
def step (r : Reader) (t : Text) : Except Stop Reader :=
  if r.separated then r.operand t
  else
    match Argument.ofText t with
    | .separator => .ok { r with separated := true }
    | .long name value => r.long name value
    | .short letters => r.short letters
    | .plain => r.plain t

/-- Reads all arguments. -/
def steps (r : Reader) (args : List Text) : Except Stop Reader := args.foldlM step r

/-- What was given. -/
def finish (r : Reader) : Except Stop Options := r.settle.map Reader.options

end Reader
end CommandLine
end Templating
