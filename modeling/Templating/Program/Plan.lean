import Templating.Block.Basic

/-!
# Plans

A plan is what a generated program is to do: declarations, and the statements that build the output.

## What is here

* `Statement` and `Plan`; `Plan.staticText` is the output of a plan whose code does nothing.
* `Plan.ofBlocks` makes the plan of some blocks.
-/

set_option autoImplicit false

namespace Templating

/-- A statement of a generated program. -/
inductive Statement where
  /-- Append a text. -/
  | literal (text : Text)
  /-- Statements of the template. -/
  | code (text : Text)
  /-- Append the value of an expression. -/
  | print (expression : Text)
  deriving DecidableEq, Repr

/-- The text a statement appends whatever the program does. -/
def Statement.staticText : Statement → Text
  | literal text => text
  | code _ | print _ => []

/-- The parts of a generated program. -/
structure Plan where
  declarations : List Text
  statements : List Statement
  deriving DecidableEq, Repr

namespace Plan

/-- The joint text of all literals. -/
def staticText (p : Plan) : Text := p.statements.flatMap Statement.staticText

/-- The literals of lines, each but the last with a line break; an empty last line needs none. -/
def literals : List Text → List Statement
  | [] => []
  | [last] => if last = [] then [] else [.literal last]
  | line :: l :: lines => .literal (line ++ ['\n']) :: literals (l :: lines)

/-- The plan with the part that one block adds in front. -/
def add (b : Block) (tag : Tag) (p : Plan) : Plan :=
  match tag with
  | .code => { p with statements := .code b.content :: p.statements }
  | .print => { p with statements := .print (Text.trim b.content) :: p.statements }
  | .declaration => { p with declarations := b.content :: p.declarations }
  | .inclusion => p

/-- The plan of the blocks of a document, after which the document ends or fails.  An include tag
that is still there is an error. -/
def ofBlocks (d : Document) (failure : Option BuildError) : List Block → Except BuildError Plan
  | [] =>
    match failure with
    | some e => .error e
    | none => .ok ⟨[], []⟩
  | b :: blocks =>
    match b.kind with
    | .tag .inclusion => .error (d.errorAt b.span .foundUnprocessedInclude)
    | .tag tag => (ofBlocks d failure blocks).map (add b tag)
    | .text =>
      (ofBlocks d failure blocks).map fun p =>
        { p with statements := literals b.lines ++ p.statements }

end Plan
end Templating
