import Templating.Error.Basic

/-!
# Documents

A document is the text of a template once other files are spliced into it, together with where each
part of it came from.

## What is here

* `SourceFile` is a file as it was read, `Piece` a part of a document that came from one place, and
  `Document` a list of pieces.
* `Document.segments` is the table of where the pieces start; `Document.locate` and `Document.sites` look
  an offset up in it, to map it back to the file it came from and to the include tags it came through.
  `Document.errorAt` raises an error there.
* `Piece.copied`, `Piece.generatedAt` and `Piece.within` are what expansion builds documents from.
-/

set_option autoImplicit false

namespace Templating

/-! ## Tables -/

/-- How many elements at the front of a list have a property.  In a table that is sorted by the
property, this is where the others begin. -/
def partitionPoint {α : Type} (p : α → Bool) (table : List α) : Nat := (table.takeWhile p).length

/-! ## Pieces -/

/-- A file as it was read. -/
structure SourceFile where
  path : Path
  text : Text
  deriving DecidableEq, Repr, Inhabited

namespace SourceFile

/-- The line, counted from 1, that an offset lies on: the one that starts there, or else the last one
that starts before. -/
def lineOf (f : SourceFile) (offset : Nat) : Nat :=
  match f.text.lineStarts.idxOf? offset with
  | some index => index + 1
  | none => partitionPoint (· < offset) f.text.lineStarts

/-- The place of a span in a file. -/
def locate (f : SourceFile) (span : Span) : Location := ⟨f.path, f.lineOf span.start, span⟩

end SourceFile

/-- An include tag that text was pulled in through. -/
structure IncludeSite where
  /-- The path as the tag has it. -/
  includePath : Text
  /-- The whole tag. -/
  location : Location
  deriving DecidableEq, Repr

/-- A part of a document that came from one place. -/
structure Piece where
  text : Text
  /-- The file it came from. -/
  file : SourceFile
  /-- Where in that file it came from. -/
  origin : Span
  /-- Whether it is not a copy of its origin, but text made up because of it. -/
  generated : Bool
  /-- The include tags it came through, outermost first. -/
  sites : List IncludeSite
  deriving DecidableEq, Repr

namespace Piece

/-- The piece that copies part of a file, if there is anything to copy. -/
def copied (file : SourceFile) (origin : Span) : List Piece :=
  let text := file.text.slice origin
  if text = [] then [] else [⟨text, file, origin, false, []⟩]

/-- A piece with a text made up because of the tag at `origin`. -/
def generatedAt (file : SourceFile) (origin : Span) (text : Text) : List Piece :=
  if text = [] then [] else [⟨text, file, origin, true, []⟩]

/-- A piece seen through one more include tag. -/
def within (site : IncludeSite) (p : Piece) : Piece := { p with sites := site :: p.sites }

end Piece

/-- A piece, and where it starts in the text of its document. -/
structure Segment where
  start : Nat
  piece : Piece
  deriving DecidableEq, Repr

namespace Segment

/-- The segments of some pieces, of which the first one starts at offset `n`. -/
def table : Nat → List Piece → List Segment
  | _, [] => []
  | n, p :: pieces => ⟨n, p⟩ :: table (n + p.text.size) pieces

/-- The place that a span which starts in a segment came from.  A copied span ends with its segment;
all of a generated one came from its tag. -/
def locate (segment : Segment) (span : Span) : Location :=
  let p := segment.piece
  if p.generated then p.file.locate p.origin
  else
    let start := p.origin.start + (span.start - segment.start)
    p.file.locate ⟨start, max start (min (start + span.size) p.origin.stop)⟩

end Segment

/-! ## Documents -/

/-- A text together with where it came from. -/
structure Document where
  /-- The file the document was made for. -/
  root : SourceFile
  pieces : List Piece
  deriving DecidableEq, Repr

namespace Document

/-- The text of one file, as it is. -/
def ofSource (path : Path) (text : Text) : Document :=
  let file : SourceFile := ⟨path, text⟩
  ⟨file, Piece.copied file ⟨0, text.size⟩⟩

/-- The text of a document. -/
def text (d : Document) : Text := d.pieces.flatMap Piece.text

/-- The path of the file a document was made for. -/
def path (d : Document) : Path := d.root.path

/-- The length of a document in bytes. -/
def size (d : Document) : Nat := d.text.size

/-- The pieces of a document, and where they start. -/
def segments (d : Document) : List Segment := Segment.table 0 d.pieces

/-- The segment that an offset lies in; what is beyond the end counts as part of the last one. -/
def segmentAt? (d : Document) (offset : Nat) : Option Segment :=
  d.segments[partitionPoint (·.start ≤ offset) d.segments - 1]?

/-- The place that a span of a document came from. -/
def locate (d : Document) (span : Span) : Location :=
  match d.segmentAt? span.start with
  | some segment => segment.locate span
  | none => ⟨d.path, 1, ⟨0, 0⟩⟩

/-- The include tags that the text at an offset came through, outermost first. -/
def sites (d : Document) (offset : Nat) : List IncludeSite :=
  match d.segmentAt? offset with
  | some segment => segment.piece.sites
  | none => []

/-- An error wrapped once for each of some include tags, the first one outermost. -/
def wrap (sites : List IncludeSite) (e : BuildError) : BuildError :=
  sites.foldr (fun site e => .failedToIncludeFile site.includePath site.location e) e

/-- The error raised at a span, seen from the file the document was made for. -/
def errorAt (d : Document) (span : Span) (error : Location → BuildError) : BuildError :=
  wrap (d.sites span.start) (error (d.locate span))

end Document
end Templating
