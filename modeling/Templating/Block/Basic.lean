import Templating.Block.Lexeme
import Templating.Document

/-!
# Blocks and scans

A block is a lexeme with its place in the document.  A scan of a document is the row of its blocks,
up to the end or up to the first fault.

## What is here

* `Block` and `Lexeme.block`; `Block.lines` reads a block line by line.
* `Scan.ofText` reads a whole text; `Scan.blocks` and `Scan.failure?` are what came of it.
* `Document.nextBlock` finds the one block that starts at an offset.
-/

set_option autoImplicit false

namespace Templating

/-! ## Blocks -/

/-- What a block is made of. -/
inductive BlockKind where
  | text
  | tag (tag : Tag)
  deriving DecidableEq, Repr

/-- A unit of a template. -/
structure Block where
  kind : BlockKind
  /-- The bytes of the document it covers, delimiters included. -/
  span : Span
  /-- A literal text, or what stands between the delimiters less one line break at either end. -/
  content : Text
  deriving DecidableEq, Repr

/-- The lines of a block, each without one carriage return at its end. -/
def Block.lines (b : Block) : List Text := b.content.lines.map Text.chomp

/-- The content of a tag, from what stands between its delimiters. -/
def Text.trimBreaks (t : Text) : Text := t.dropBreak.dropFinalBreak

namespace Lexeme

/-- The kind of block a lexeme makes. -/
def kind : Lexeme → BlockKind
  | literal _ => .text
  | tagged tag _ => .tag tag

/-- The content of the block a lexeme makes. -/
def content : Lexeme → Text
  | literal text => text
  | tagged _ body => body.trimBreaks

/-- The length of a lexeme in bytes. -/
def size (x : Lexeme) : Nat := x.source.size

/-- The block a lexeme makes at an offset. -/
def block (x : Lexeme) (offset : Nat) : Block :=
  ⟨x.kind, ⟨offset, offset + x.size⟩, x.content⟩

/-- The blocks of lexemes that follow each other from an offset on. -/
def blocks : Nat → List Lexeme → List Block
  | _, [] => []
  | offset, x :: xs => x.block offset :: blocks (offset + x.size) xs

end Lexeme

/-! ## Faults as errors -/

/-- A fault as the error raised at a location. -/
def Fault.error (f : Fault) (l : Location) : BuildError :=
  match f.kind with
  | .unopened => .missingOpeningBlock l
  | .unclosed expected => .missingClosingBlock expected l
  | .unrecognized tag => .unrecognizedBlockTag tag l

/-- A fault in a document as an error. -/
def Document.faultError (d : Document) (f : Fault) : BuildError := d.errorAt f.span f.error

/-! ## Scans -/

/-- The lexemes of a text, up to its end or to a fault, whose span counts from the end of the last
lexeme. -/
structure Scan where
  lexemes : List Lexeme
  fault : Option Fault
  deriving DecidableEq, Repr

namespace Scan

/-- Reads lexemes for as long as there are any. -/
def ofText (g : Grammar) (t : Text) : Scan :=
  if t = [] then ⟨[], none⟩
  else
    match _h : Lexeme.next g t with
    | .error f => ⟨[], some f⟩
    | .ok (x, rest) =>
      let s := ofText g rest
      ⟨x :: s.lexemes, s.fault⟩
termination_by t.length
decreasing_by exact Lexeme.next_length _h

/-- Where the lexemes of a scan end. -/
def stop (s : Scan) : Nat := Text.size (s.lexemes.flatMap Lexeme.source)

/-- The blocks of a scan. -/
def blocks (s : Scan) : List Block := Lexeme.blocks 0 s.lexemes

/-- The error a scan of a document ended with, if it did not reach the end. -/
def failure? (s : Scan) (d : Document) : Option BuildError :=
  s.fault.map fun f => d.faultError (f.shift s.stop)

end Scan

namespace Document

/-- The scan of a document. -/
def scan (d : Document) (g : Grammar) : Scan := Scan.ofText g d.text

/-- The blocks of a document, or the first error. -/
def parse (d : Document) (g : Grammar) : Except BuildError (List Block) :=
  match (d.scan g).failure? d with
  | some e => .error e
  | none => .ok (d.scan g).blocks

/-- The block that starts at an offset; there is none at the end of the document or beyond. -/
def nextBlock (d : Document) (g : Grammar) (offset : Nat) : Except BuildError (Option Block) :=
  if d.size ≤ offset then .ok none
  else
    match Lexeme.next g (d.text.dropBytes offset) with
    | .ok (x, _) => .ok (some (x.block offset))
    | .error f => .error (d.faultError (f.shift offset))

end Document
end Templating
