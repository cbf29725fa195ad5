import Templating.Include.Tag
import Templating.Directive
import Templating.FileSystem

/-!
# Expanding include tags

Expansion replaces every include tag by the expansion of the file it names, between two marker lines.
A file that was expanded as an include is remembered, so that it is read once however often it is
included.  A file that is still being expanded cannot be included again: that would never end.

## What is here

* `Outline` is a file whose directive and include tags have been read and accepted.
* `Expander` is what is remembered from one expansion to the next.
* `Expander.expandTag` expands the file that one tag names, `Expander.expandTags` works through the
  tags of one file, and `Expander.expand` expands a whole file.
-/

set_option autoImplicit false

namespace Templating

/-! ## Outlines -/

/-- A file, where its own text begins, and its include tags. -/
structure Outline where
  file : SourceFile
  start : Nat
  tags : List IncludeTag
  deriving DecidableEq, Repr

/-- The outline of a file, if its directive admits the running tool and its include tags. -/
def Outline.ofText (running : Version) (path : Path) (text : Text) : Except BuildError Outline := do
  let d := Document.ofSource path text
  let directive ← Directive.find? d
  Directive.checkTools d running directive
  let tags ← IncludeTag.findAll d
  if tags ≠ [] then Directive.checkFeature d Version.includeMinimum "includes" directive
  return ⟨d.root, Directive.bodyStart directive, tags⟩

/-! ## The text around an included file -/

namespace IncludeTag

/-- The line in front of an included file. -/
def beginMarker (includePath : Text) : Text :=
  "// *** Begin Included '".toList ++ includePath ++ "' ***\n".toList

/-- The line behind an included file. -/
def endMarker (includePath : Text) : Text :=
  "// *** End Include '".toList ++ includePath ++ "' ***\n".toList

/-- The place of a tag of a file, as documents remember it. -/
def site (tag : IncludeTag) (file : SourceFile) : IncludeSite :=
  ⟨tag.includePath, file.locate tag.span⟩

/-- The line break that ends a text that has none at its end. -/
def missingBreak (t : Text) : Text := if t = [] ∨ t.getLast? = some '\n' then [] else ['\n']

/-- What stands in the place of a tag of a file: the included document between its markers. -/
def replacement (tag : IncludeTag) (file : SourceFile) (d : Document) : List Piece :=
  Piece.generatedAt file tag.span (beginMarker tag.includePath)
    ++ d.pieces.map (Piece.within (tag.site file))
    ++ Piece.generatedAt file tag.span (missingBreak d.text)
    ++ Piece.generatedAt file tag.span (endMarker tag.includePath)

end IncludeTag

/-! ## Expansion -/

/-- What an expander works with. -/
structure Surroundings where
  files : FileSystem
  /-- The version of the running tool. -/
  running : Version

/-- What is remembered from one expansion to the next. -/
structure Expander where
  /-- The files expanded as includes, under the paths they were looked up by. -/
  known : List (Path × Document) := []
  /-- The files read, in order. -/
  reads : List Path := []

namespace Expander

/-- The expansion that is remembered for a path. -/
def find? (x : Expander) (p : Path) : Option Document :=
  (x.known.find? fun entry => Path.Same entry.1 p).map Prod.snd

/-- Notes that a file is read. -/
def note (x : Expander) (p : Path) : Expander := { x with reads := x.reads ++ [p] }

/-- Remembers the expansion of a file. -/
def remember (x : Expander) (p : Path) (d : Document) : Expander :=
  { x with known := (p, d) :: x.known }

mutual

/-- Expands the file that a tag of `file` names, where `stack` are the files in progress and `file`
is the last of them.  What is remembered is not expanded again. -/
def expandTag (s : Surroundings) (stack : List Path) (file : SourceFile) (tag : IncludeTag)
    (x : Expander) : Except BuildError Document × Expander :=
  let location := file.locate tag.span
  let fail (e : BuildError) : BuildError := .failedToIncludeFile tag.includePath location e
  match x.find? tag.target with
  | some d => (.ok d, x)
  | none =>
    if _hs : stack.any fun q => Path.Same q tag.target then
      (.error (.cyclicInclude tag.includePath (stack ++ [tag.target]) location), x)
    else if _hf : (s.files.find? tag.target).isSome then
      let x := x.note tag.target
      match s.files.readText tag.target none with
      | .error e => (.error (fail e), x)
      | .ok (text, _) =>
        match Outline.ofText s.running tag.target text with
        | .error e => (.error (fail e), x)
        | .ok o =>
          match expandTags s (stack ++ [tag.target]) o.file o.start o.tags x with
          | (.error e, x) => (.error (fail e), x)
          | (.ok pieces, x) => (.ok ⟨o.file, pieces⟩, x.remember tag.target ⟨o.file, pieces⟩)
    else (.error (.includedFileNotFound tag.includePath tag.target location), x)
termination_by (s.files.unvisited stack, 0)
decreasing_by exact Prod.Lex.left _ _ (FileSystem.unvisited_append_lt _hf _hs)

/-- Expands what a file has from offset `cursor` on, where `tags` are the include tags there and
`stack` are the files in progress, this one last. -/
def expandTags (s : Surroundings) (stack : List Path) (file : SourceFile) (cursor : Nat)
    (tags : List IncludeTag) (x : Expander) : Except BuildError (List Piece) × Expander :=
  match tags with
  | [] => (.ok (Piece.copied file ⟨cursor, file.text.size⟩), x)
  | tag :: tags =>
    match expandTag s stack file tag x with
    | (.error e, x) => (.error e, x)
    | (.ok d, x) =>
      match expandTags s stack file tag.span.stop tags x with
      | (.error e, x) => (.error e, x)
      | (.ok pieces, x) =>
        (.ok (Piece.copied file ⟨cursor, tag.span.start⟩ ++ tag.replacement file d ++ pieces), x)
termination_by (s.files.unvisited stack, tags.length)
decreasing_by
  · exact Prod.Lex.right _ (Nat.succ_pos _)
  · exact Prod.Lex.right _ (Nat.lt_succ_self _)

end

/-- Expands the file at `path` with the given text.  Its directive line is left out. -/
def expand (s : Surroundings) (path : Path) (text : Text) (x : Expander) :
    Except BuildError Document × Expander :=
  match Outline.ofText s.running path text with
  | .error e => (.error e, x)
  | .ok o =>
    match expandTags s [path] o.file o.start o.tags x with
    | (.error e, x) => (.error e, x)
    | (.ok pieces, x) => (.ok ⟨o.file, pieces⟩, x)

end Expander
end Templating
