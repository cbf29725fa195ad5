import Templating.Proofs.Include.Graph

/-!
# How an expansion goes

Everything that is known of all expansions is shown in the same way: for each thing that can happen
at a tag, and for each way to go through a list of tags.  `Expander.Rule` lists these cases once, and
`Expander.Rule.tag` and `Expander.Rule.tags` conclude from them.

Expansion is a mutual recursion over tags and lists of tags, with a remembered state that goes through
it.  It ends because the files in progress are different ones, of which there are finitely many.  With
the rule, that argument and the splitting of cases are made here and nowhere else: a proof about
expansion says what it shows of a tag and of a list of tags, and goes through the cases by name.

In each case the hypotheses are what was found out on the way there, in the order in which it is
checked: that the file is not remembered, that it is not in progress, that it exists, that it can be
read.
-/

set_option autoImplicit false

namespace Templating

/-- The error at a tag of a file, when the file that the tag names cannot be expanded. -/
def IncludeTag.failure (tag : IncludeTag) (file : SourceFile) (e : BuildError) : BuildError :=
  .failedToIncludeFile tag.includePath (file.locate tag.span) e

namespace Expander

/-- What has to be shown of two properties, one of the expansion of the file that a tag names, one of
the expansion of the tags of a file, for them to hold of every run.  Both relate what a run starts
with to its result and to what is remembered after it. -/
structure Rule (s : Surroundings)
    (Tag : List Path → SourceFile → IncludeTag → Expander → Except BuildError Document → Expander →
      Prop)
    (Tags : List Path → SourceFile → Nat → List IncludeTag → Expander →
      Except BuildError (List Piece) → Expander → Prop) : Prop where
  /-- The file was expanded before. -/
  known {stack : List Path} {file : SourceFile} {tag : IncludeTag} {x : Expander} {d : Document}
    (hx : x.find? tag.target = some d) : Tag stack file tag x (.ok d) x
  /-- The file is in progress. -/
  cyclic {stack : List Path} {file : SourceFile} {tag : IncludeTag} {x : Expander}
    (hx : x.find? tag.target = none) (hs : ∃ q ∈ stack, Path.Same q tag.target) :
    Tag stack file tag x (.error (.cyclicInclude tag.includePath (stack ++ [tag.target])
      (file.locate tag.span))) x
  /-- There is no such file. -/
  missing {stack : List Path} {file : SourceFile} {tag : IncludeTag} {x : Expander}
    (hx : x.find? tag.target = none) (hs : ∀ q ∈ stack, ¬ Path.Same q tag.target)
    (hf : s.files.find? tag.target = none) :
    Tag stack file tag x (.error (.includedFileNotFound tag.includePath tag.target
      (file.locate tag.span))) x
  /-- The file cannot be read, or its encoding is not known. -/
  unreadable {stack : List Path} {file : SourceFile} {tag : IncludeTag} {x : Expander}
    {e : BuildError} (hx : x.find? tag.target = none)
    (hs : ∀ q ∈ stack, ¬ Path.Same q tag.target) (hf : (s.files.find? tag.target).isSome = true)
    (hread : s.files.readText tag.target none = .error e) :
    Tag stack file tag x (.error (tag.failure file e)) (x.note tag.target)
  /-- The version directive or the include tags of the file are not accepted. -/
  refused {stack : List Path} {file : SourceFile} {tag : IncludeTag} {x : Expander} {text : Text}
    {encoding : TextEncoding} {e : BuildError} (hx : x.find? tag.target = none)
    (hs : ∀ q ∈ stack, ¬ Path.Same q tag.target) (hf : (s.files.find? tag.target).isSome = true)
    (hread : s.files.readText tag.target none = .ok (text, encoding))
    (ho : Outline.ofText s.running tag.target text = .error e) :
    Tag stack file tag x (.error (tag.failure file e)) (x.note tag.target)
  /-- The file is accepted, but one of its own tags cannot be expanded. -/
  failed {stack : List Path} {file : SourceFile} {tag : IncludeTag} {x x' : Expander} {text : Text}
    {encoding : TextEncoding} {o : Outline} {e : BuildError} (hx : x.find? tag.target = none)
    (hs : ∀ q ∈ stack, ¬ Path.Same q tag.target) (hf : (s.files.find? tag.target).isSome = true)
    (hread : s.files.readText tag.target none = .ok (text, encoding))
    (ho : Outline.ofText s.running tag.target text = .ok o)
    (hrun : expandTags s (stack ++ [tag.target]) o.file o.start o.tags (x.note tag.target)
      = (.error e, x'))
    (ih : Tags (stack ++ [tag.target]) o.file o.start o.tags (x.note tag.target) (.error e) x') :
    Tag stack file tag x (.error (tag.failure file e)) x'
  /-- The file is expanded, and that is remembered. -/
  expanded {stack : List Path} {file : SourceFile} {tag : IncludeTag} {x x' : Expander} {text : Text}
    {encoding : TextEncoding} {o : Outline} {pieces : List Piece} (hx : x.find? tag.target = none)
    (hs : ∀ q ∈ stack, ¬ Path.Same q tag.target) (hf : (s.files.find? tag.target).isSome = true)
    (hread : s.files.readText tag.target none = .ok (text, encoding))
    (ho : Outline.ofText s.running tag.target text = .ok o)
    (hrun : expandTags s (stack ++ [tag.target]) o.file o.start o.tags (x.note tag.target)
      = (.ok pieces, x'))
    (ih : Tags (stack ++ [tag.target]) o.file o.start o.tags (x.note tag.target) (.ok pieces) x') :
    Tag stack file tag x (.ok ⟨o.file, pieces⟩) (x'.remember tag.target ⟨o.file, pieces⟩)
  /-- Behind the last tag the text of the file is copied up to its end. -/
  nil {stack : List Path} {file : SourceFile} {cursor : Nat} {x : Expander} :
    Tags stack file cursor [] x (.ok (Piece.copied file ⟨cursor, file.text.size⟩)) x
  /-- The first tag cannot be expanded. -/
  stopped {stack : List Path} {file : SourceFile} {cursor : Nat} {tag : IncludeTag}
    {tags : List IncludeTag} {x x' : Expander} {e : BuildError}
    (hrun : expandTag s stack file tag x = (.error e, x')) (ih : Tag stack file tag x (.error e) x') :
    Tags stack file cursor (tag :: tags) x (.error e) x'
  /-- One of the later tags cannot be expanded. -/
  stoppedLater {stack : List Path} {file : SourceFile} {cursor : Nat} {tag : IncludeTag}
    {tags : List IncludeTag} {x x' x'' : Expander} {d : Document} {e : BuildError}
    (hrun : expandTag s stack file tag x = (.ok d, x')) (ih : Tag stack file tag x (.ok d) x')
    (hlater : expandTags s stack file tag.span.stop tags x' = (.error e, x''))
    (ihlater : Tags stack file tag.span.stop tags x' (.error e) x'') :
    Tags stack file cursor (tag :: tags) x (.error e) x''
  /-- The first tag is expanded, and so are all others. -/
  cons {stack : List Path} {file : SourceFile} {cursor : Nat} {tag : IncludeTag}
    {tags : List IncludeTag} {x x' x'' : Expander} {d : Document} {pieces : List Piece}
    (hrun : expandTag s stack file tag x = (.ok d, x')) (ih : Tag stack file tag x (.ok d) x')
    (hlater : expandTags s stack file tag.span.stop tags x' = (.ok pieces, x''))
    (ihlater : Tags stack file tag.span.stop tags x' (.ok pieces) x'') :
    Tags stack file cursor (tag :: tags) x
      (.ok (Piece.copied file ⟨cursor, tag.span.start⟩ ++ tag.replacement file d ++ pieces)) x''

variable {s : Surroundings}
  {Tag : List Path → SourceFile → IncludeTag → Expander → Except BuildError Document → Expander → Prop}
  {Tags : List Path → SourceFile → Nat → List IncludeTag → Expander →
    Except BuildError (List Piece) → Expander → Prop}

mutual

/-- What holds at each tag in every case holds of every run from a tag on. -/
theorem Rule.tag (rule : Rule s Tag Tags) (stack : List Path) (file : SourceFile)
    (tag : IncludeTag) (x : Expander) :
    Tag stack file tag x (expandTag s stack file tag x).1 (expandTag s stack file tag x).2 := by
  rw [expandTag]
  cases hx : x.find? tag.target with
  | some d => exact rule.known hx
  | none =>
    dsimp only
    split
    · next hs => exact rule.cyclic hx (by simpa using hs)
    · next hs =>
      have hstack : ∀ q ∈ stack, ¬ Path.Same q tag.target := by simpa using hs
      split
      · next hf =>
        cases hread : s.files.readText tag.target none with
        | error e => exact rule.unreadable hx hstack hf hread
        | ok r =>
          obtain ⟨text, encoding⟩ := r
          dsimp only
          cases ho : Outline.ofText s.running tag.target text with
          | error e => exact rule.refused hx hstack hf hread ho
          | ok o =>
            have ih := rule.tags (stack ++ [tag.target]) o.file o.start o.tags (x.note tag.target)
            dsimp only
            generalize hrun : expandTags s (stack ++ [tag.target]) o.file o.start o.tags
              (x.note tag.target) = r at ih ⊢
            obtain ⟨_ | pieces, x'⟩ := r
            · exact rule.failed hx hstack hf hread ho hrun ih
            · exact rule.expanded hx hstack hf hread ho hrun ih
      · next hf => exact rule.missing hx hstack (by simpa using hf)
termination_by (s.files.unvisited stack, 0)
decreasing_by exact Prod.Lex.left _ _ (FileSystem.unvisited_append_lt (by assumption) (by assumption))

/-- And so for a list of tags. -/
theorem Rule.tags (rule : Rule s Tag Tags) (stack : List Path) (file : SourceFile) (cursor : Nat)
    (tags : List IncludeTag) (x : Expander) :
    Tags stack file cursor tags x (expandTags s stack file cursor tags x).1
      (expandTags s stack file cursor tags x).2 := by
  rw [expandTags.eq_def]
  cases tags with
  | nil => exact rule.nil
  | cons tag tags =>
    have ih := rule.tag stack file tag x
    dsimp only
    generalize hrun : expandTag s stack file tag x = r at ih ⊢
    obtain ⟨_ | d, x'⟩ := r
    · exact rule.stopped hrun ih
    · have ihlater := rule.tags stack file tag.span.stop tags x'
      dsimp only
      generalize hlater : expandTags s stack file tag.span.stop tags x' = r at ihlater ⊢
      obtain ⟨_ | pieces, x''⟩ := r
      · exact rule.stoppedLater hrun ih hlater ihlater
      · exact rule.cons hrun ih hlater ihlater
termination_by (s.files.unvisited stack, tags.length)
decreasing_by
  · exact Prod.Lex.right _ (Nat.succ_pos _)
  · exact Prod.Lex.right _ (Nat.lt_succ_self _)

end

end Expander
end Templating
