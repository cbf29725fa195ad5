import Templating.Program.Swift

/-!
# Generator programs

A generator program is a plan together with its source text and with what it was made from.

## What is here

* `Program.banner` is the line at the top of generated files.
* `Program.emit` makes the program of a document's blocks.
-/

set_option autoImplicit false

namespace Templating

/-- What a program is made with. -/
structure EmitContext where
  className : Text
  /-- The file name shown in the banner. -/
  templateName : Text
  encoding : TextEncoding
  toolsVersion : Version
  /-- Whether the output begins with a banner. -/
  banner : Bool

/-- A generator program. -/
structure Program where
  className : Text
  template : Path
  /-- The encoding of its output. -/
  encoding : TextEncoding
  plan : Plan
  source : Text
  deriving DecidableEq, Repr

namespace Program

/-- The line at the top of every generated file. -/
def banner (templateName : Text) (version : Version) : Text :=
  "// This file was generated from '".toList ++ templateName ++ "' by dswift ".toList
    ++ version.render ++ ". Do not edit; changes will be lost.\n".toList

/-- A plan whose output begins with a banner, if it is to have one. -/
def withBanner (c : EmitContext) (p : Plan) : Plan :=
  if c.banner then
    { p with statements := .literal (banner c.templateName c.toolsVersion) :: p.statements }
  else p

/-- The program of the blocks of a document, after which it ends or fails. -/
def emit (c : EmitContext) (d : Document) (failure : Option BuildError) (blocks : List Block) :
    Except BuildError Program :=
  (Plan.ofBlocks d failure blocks).map fun plan =>
    let plan := withBanner c plan
    { className := c.className
      template := d.path
      encoding := c.encoding
      plan
      source := Swift.render ⟨c.className, c.templateName, c.encoding⟩ plan }

/-- The program of a document. -/
def ofDocument (c : EmitContext) (d : Document) : Except BuildError Program :=
  let s := d.scan .standard
  emit c d (s.failure? d) s.blocks

/-- What a program puts out when its code does nothing. -/
def staticText (p : Program) : Text := p.plan.staticText

end Program
end Templating
