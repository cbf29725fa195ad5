import Templating.Block.Basic

/-!
# Cursors

A cursor goes through a document block by block.  It stays at the end, and behind an error.

## What is here

* `Grammar.ofKinds` is the grammar of some kinds of block.
* `Cursor.next` yields the next block of a document, or the error in its place.
-/

set_option autoImplicit false

namespace Templating

/-- The tag that a kind of block is written with; a literal text has none. -/
def BlockKind.tag? : BlockKind → Option Tag
  | .text => none
  | .tag t => some t

/-- The grammar of some kinds of block. -/
def Grammar.ofKinds (kinds : List BlockKind) : Grammar := ofTags (kinds.filterMap BlockKind.tag?)

/-- A place in a document that is read with a grammar. -/
structure Cursor where
  grammar : Grammar
  document : Document
  /-- Where the next block starts. -/
  offset : Nat := 0
  /-- Whether an error was yielded. -/
  failed : Bool := false
  deriving DecidableEq, Repr

namespace Cursor

/-- Yields the next block, or the error in its place.  There is nothing at the end of the document, and
nothing behind an error. -/
def next (c : Cursor) : Option (Except BuildError Block) × Cursor :=
  if c.failed then (none, c)
  else
    match c.document.nextBlock c.grammar c.offset with
    | .ok (some b) => (some (.ok b), { c with offset := b.span.stop })
    | .ok none => (none, c)
    | .error e => (some (.error e), { c with failed := true })

end Cursor
end Templating
