import Templating.Proofs.Include.Memory

/-!
# What an expanded text is made of

The text of an expansion is a sequence of runs.  Each is copied from one of the files, or made up
because of one of their include tags, and was come to through a path of include tags.  Documents
leave out the runs without text.

## What is here

* `Run` is a run of text, and `IncludeTree.runs` are the runs that an include tree stands for.
* `IncludeTree.pieces_eq_runs` says that the pieces of a document are its runs.
* `SitePath` is a path of include tags from one file to another, and `Run.Fits` says that a run is what
  it is said to be; `IncludeTree.Grows.fits` shows it of every run of a tree.
-/

set_option autoImplicit false

namespace Templating

/-! ## Runs

A run keeps what a piece of a document keeps, and in addition that it may be empty.  So the runs of a
tree are always laid out in the same way, and nothing has to be said about which pieces are left out. -/

/-- Where text of a document comes from in a file. -/
inductive Origin where
  /-- It is a copy of what the file has there. -/
  | copied (span : Span)
  /-- It was made up because of an include tag of the file. -/
  | generated (tag : IncludeTag)

/-- The part of the file that stands for the text. -/
def Origin.span : Origin → Span
  | copied span => span
  | generated tag => tag.span

/-- Whether the text is not a copy. -/
def Origin.isGenerated : Origin → Bool
  | copied _ => false
  | generated _ => true

/-- A part of an expanded text that comes from one place. -/
structure Run where
  text : Text
  file : SourceFile
  origin : Origin
  /-- The include tags it was come to through, outermost first. -/
  sites : List IncludeSite

/-- A run as a document has it. -/
def Run.pieces (r : Run) : List Piece :=
  if r.text = [] then [] else [⟨r.text, r.file, r.origin.span, r.origin.isGenerated, r.sites⟩]

/-- The runs of a file from offset `cursor` on, with what its tags bring in, if the file was come to
through the tags at `sites`. -/
def IncludeTree.runs (sites : List IncludeSite) (file : SourceFile) (cursor : Nat) :
    IncludeTree → List Run
  | done =>
    let span : Span := ⟨cursor, file.text.size⟩
    [⟨file.text.slice span, file, .copied span, sites⟩]
  | tag t o below later =>
    let span : Span := ⟨cursor, t.span.start⟩
    let included := below.runs (sites ++ [t.site file]) o.file o.start
    [⟨file.text.slice span, file, .copied span, sites⟩,
      ⟨IncludeTag.beginMarker t.includePath, file, .generated t, sites⟩] ++ included ++
    [⟨IncludeTag.missingBreak (included.flatMap Run.text), file, .generated t, sites⟩,
      ⟨IncludeTag.endMarker t.includePath, file, .generated t, sites⟩] ++
    later.runs sites file t.span.stop

/-- The text of a file with an included file in the place of its first tag. -/
theorem IncludeTree.text_runs_tag (sites : List IncludeSite) (file : SourceFile) (cursor : Nat)
    (t : IncludeTag) (o : Outline) (below later : IncludeTree) :
    ((IncludeTree.tag t o below later).runs sites file cursor).flatMap Run.text
      = file.text.slice ⟨cursor, t.span.start⟩ ++ (IncludeTag.beginMarker t.includePath
        ++ ((below.runs (sites ++ [t.site file]) o.file o.start).flatMap Run.text
        ++ (IncludeTag.missingBreak
            ((below.runs (sites ++ [t.site file]) o.file o.start).flatMap Run.text)
        ++ (IncludeTag.endMarker t.includePath
        ++ (later.runs sites file t.span.stop).flatMap Run.text)))) := by
  rw [runs]
  simp only [List.flatMap_append, List.flatMap_cons, List.flatMap_nil, List.append_nil,
    List.append_assoc]

/-! ## Runs and pieces

A document is put together from the inside: the pieces of an included file are made first, and then each
tag on the way is added to all of them.  A run has all its tags from the start.  To compare the two, a
piece is looked at behind the tags that are still to come. -/

/-- A piece seen through some more include tags. -/
def Piece.behind (sites : List IncludeSite) (p : Piece) : Piece :=
  { p with sites := sites ++ p.sites }

/-- A tag is added on the inside of those that are still to come. -/
theorem Piece.behind_within (sites : List IncludeSite) (site : IncludeSite) (p : Piece) :
    (p.within site).behind sites = p.behind (sites ++ [site]) := by
  rw [behind, behind, within, List.append_assoc, List.singleton_append]

/-- Copied text is a run. -/
theorem Piece.map_behind_copied (sites : List IncludeSite) (file : SourceFile) (span : Span) :
    (Piece.copied file span).map (Piece.behind sites)
      = Run.pieces ⟨file.text.slice span, file, .copied span, sites⟩ := by
  rw [copied, Run.pieces]
  split
  · rfl
  · rw [List.map_singleton, behind, List.append_nil]
    rfl

/-- Text that was made up is a run. -/
theorem Piece.map_behind_generatedAt (sites : List IncludeSite) (file : SourceFile)
    (tag : IncludeTag) (text : Text) :
    (Piece.generatedAt file tag.span text).map (Piece.behind sites)
      = Run.pieces ⟨text, file, .generated tag, sites⟩ := by
  rw [generatedAt, Run.pieces]
  split
  · rfl
  · rw [List.map_singleton, behind, List.append_nil]
    rfl

/-- A run has the text of its pieces. -/
theorem Run.text_pieces (r : Run) : r.pieces.flatMap Piece.text = r.text := by
  rw [pieces]
  split
  · next h => rw [h]; rfl
  · exact List.flatMap_singleton ..

/-- And so have some runs. -/
theorem Run.text_flatMap_pieces (runs : List Run) :
    (runs.flatMap Run.pieces).flatMap Piece.text = runs.flatMap Run.text := by
  have htext : (fun r : Run => r.pieces.flatMap Piece.text) = Run.text := funext Run.text_pieces
  rw [List.flatMap_assoc, htext]

/-- Tags make no difference to the text. -/
theorem Piece.text_map_behind (sites : List IncludeSite) (pieces : List Piece) :
    (pieces.map (Piece.behind sites)).flatMap Piece.text = pieces.flatMap Piece.text := by
  rw [List.flatMap_map]
  rfl

namespace IncludeTree

/-- **The pieces of an expansion are its runs**, behind whatever tags the file was come to through. -/
theorem pieces_eq_runs (tree : IncludeTree) (sites : List IncludeSite) (file : SourceFile)
    (cursor : Nat) : (tree.pieces file cursor).map (Piece.behind sites)
      = (tree.runs sites file cursor).flatMap Run.pieces := by
  induction tree generalizing sites file cursor with
  | done =>
    rw [pieces, runs, Piece.map_behind_copied]
    exact (List.flatMap_singleton ..).symm
  | tag t o below later ihbelow ihlater =>
    have hbelow : ((below.pieces o.file o.start).map (Piece.within (t.site file))).map
        (Piece.behind sites)
          = (below.runs (sites ++ [t.site file]) o.file o.start).flatMap Run.pieces := by
      rw [← ihbelow, List.map_map]
      exact List.map_congr_left fun p _ => Piece.behind_within sites (t.site file) p
    have htext : Document.text ⟨o.file, below.pieces o.file o.start⟩
        = (below.runs (sites ++ [t.site file]) o.file o.start).flatMap Run.text := by
      rw [← Run.text_flatMap_pieces, ← ihbelow, Piece.text_map_behind]
      rfl
    rw [pieces, runs, IncludeTag.replacement]
    simp only [List.map_append, Piece.map_behind_copied, Piece.map_behind_generatedAt, hbelow, htext,
      ihlater, List.flatMap_append, List.flatMap_cons, List.flatMap_nil, List.append_nil,
      List.append_assoc]

/-- Outside of every include tag, the pieces of a file are its runs. -/
theorem pieces_eq_flatMap_runs (tree : IncludeTree) (file : SourceFile) (cursor : Nat) :
    tree.pieces file cursor = (tree.runs [] file cursor).flatMap Run.pieces := by
  rw [← pieces_eq_runs]
  exact (List.map_id _).symm

end IncludeTree

/-! ## Where runs come from

Every run of a tree is checked against the files, with the tags of a file between an offset and its end
as the invariant: that is what an outline says of a file, and it holds of the rest behind each tag. -/

/-- The include tags at `sites` lead from the file at `p` to the one at `q`: each stands in the file
that the one before it names. -/
inductive SitePath (s : Surroundings) (chosen : Path → Option TextEncoding) :
    Path → List IncludeSite → Path → Prop
  | here (p : Path) : SitePath s chosen p [] p
  | tag {p q : Path} {text : Text} {tags : List IncludeTag} {tag : IncludeTag}
      {sites : List IncludeSite} (htext : s.text? chosen p = some text)
      (htags : IncludeTag.findAll (.ofSource p text) = .ok tags) (htag : tag ∈ tags)
      (hrest : SitePath s chosen (Path.resolve p ⟨tag.includePath⟩) sites q) :
      SitePath s chosen p (tag.site ⟨p, text⟩ :: sites) q

variable {s : Surroundings} {chosen : Path → Option TextEncoding}

/-- One more tag on the way. -/
theorem SitePath.concat {p q : Path} {sites : List IncludeSite} {text : Text}
    {tags : List IncludeTag} {tag : IncludeTag} (h : SitePath s chosen p sites q)
    (htext : s.text? chosen q = some text)
    (htags : IncludeTag.findAll (.ofSource q text) = .ok tags) (htag : tag ∈ tags) :
    SitePath s chosen p (sites ++ [tag.site ⟨q, text⟩]) (Path.resolve q ⟨tag.includePath⟩) := by
  induction h with
  | here p => exact .tag htext htags htag (.here _)
  | tag htext' htags' htag' _ ih => exact .tag htext' htags' htag' (ih htext htags)

/-- The run is what it is said to be: its file is one that a build reads, it is the part of the file
that it was copied from or comes from a tag that is in the file, and its tags lead there. -/
structure Run.Fits (s : Surroundings) (chosen : Path → Option TextEncoding) (root : Path) (r : Run) :
    Prop where
  file : s.text? chosen r.file.path = some r.file.text
  copied : ∀ span, r.origin = .copied span →
    ∃ a c, r.file.text = a ++ r.text ++ c ∧ span = ⟨a.size, a.size + r.text.size⟩
  generated : ∀ tag, r.origin = .generated tag →
    (∃ a c, r.file.text = a ++ c ∧ tag.span.start = a.size) ∧
      ∃ tags, IncludeTag.findAll (.ofSource r.file.path r.file.text) = .ok tags ∧ tag ∈ tags
  sites : SitePath s chosen root r.sites r.file.path

/-- The runs of a tree are what they are said to be, if its tags are those that the file has from an
offset on. -/
theorem IncludeTree.Grows.fits {root : Path} {tags all : List IncludeTag} {tree : IncludeTree}
    {sites : List IncludeSite} {file : SourceFile} {front rest : Text}
    (htree : IncludeTree.Grows s chosen tags tree) (hfile : s.text? chosen file.path = some file.text)
    (hall : IncludeTag.findAll (.ofSource file.path file.text) = .ok all) (hsub : ∀ t ∈ tags, t ∈ all)
    (htext : file.text = front ++ rest) (hfound : IncludeTag.Found file.path front.size rest tags)
    (hsites : SitePath s chosen root sites file.path) :
    ∀ r ∈ tree.runs sites file front.size, r.Fits s chosen root := by
  -- In a tag there are two ways on: into its file, with the tag on the path, and behind it.
  induction htree generalizing sites file front rest all with
  | done =>
    intro r hr
    rw [runs] at hr
    obtain rfl := List.mem_singleton.1 hr
    have hslice : file.text.slice ⟨front.size, file.text.size⟩ = rest := Text.slice_rest htext
    refine ⟨hfile, ?_, nofun, hsites⟩
    rintro _ ⟨⟩
    refine ⟨front, [], by simpa [hslice] using htext, ?_⟩
    rw [hslice, htext, Text.size_append]
  | @tag tag tags o below later ho hbelow hlater ihbelow ihlater =>
    have hmem : tag ∈ all := hsub tag (List.mem_cons_self ..)
    have hsites' := hsites.concat hfile hall hmem
    have haccepted := Surroundings.accepted_of_outline? ho
    obtain ⟨line, rest', htext', -, hstart, hfound'⟩ := haccepted.body
    cases hfound with
    | @cons _ lead body rest includePath _ _ _ _ hrest =>
      generalize Tag.inclusion.opening ++ body ++ Tag.inclusion.closing = tagText at *
      have hslice : file.text.slice ⟨front.size, front.size + lead.size⟩ = lead :=
        Text.slice_eq (c := tagText ++ rest) (by rw [htext, List.append_assoc]) rfl rfl
      have hgenerated : ∀ t : Text, Run.Fits s chosen root
          ⟨t, file, .generated ⟨⟨front.size + lead.size, front.size + lead.size + tagText.size⟩,
            includePath, Path.resolve file.path ⟨includePath⟩⟩, sites⟩ := by
        refine fun t => ⟨hfile, nofun, ?_, hsites⟩
        rintro _ ⟨⟩
        refine ⟨⟨front ++ lead, tagText ++ rest, ?_, ?_⟩, all, hall, hmem⟩
        · rw [htext, List.append_assoc]
        · rw [Text.size_append]
      intro r hr
      simp only [runs, List.mem_append, List.mem_cons, List.not_mem_nil, or_false] at hr
      rcases hr with (((rfl | rfl) | hr) | (rfl | rfl)) | hr
      · -- The text in front of the tag.
        refine ⟨hfile, ?_, nofun, hsites⟩
        rintro _ ⟨⟩
        refine ⟨front, tagText ++ rest, ?_, ?_⟩
        · rw [hslice, htext, List.append_assoc]
        · rw [hslice]
      · exact hgenerated _
      · -- The file that the tag names, behind its directive line.
        rw [hstart] at hr
        refine ihbelow haccepted.read haccepted.tags (fun t ht => ht) htext' hfound' ?_ r hr
        rw [haccepted.path]
        exact hsites'
      · exact hgenerated _
      · exact hgenerated _
      · -- What follows the tag.
        have hstop : front.size + lead.size + tagText.size = (front ++ lead ++ tagText).size := by
          rw [Text.size_append, Text.size_append]
        rw [hstop] at hr hrest
        have hsub' : ∀ t ∈ tags, t ∈ all := fun t ht => hsub t (List.mem_cons_of_mem _ ht)
        refine ihlater hfile hall hsub' ?_ hrest hsites r hr
        rw [htext]
        simp only [List.append_assoc]

/-- The runs of an accepted file are what they are said to be. -/
theorem Surroundings.Accepted.fits {p : Path} {o : Outline} {tree : IncludeTree}
    (h : s.Accepted chosen p o) (htree : IncludeTree.Grows s chosen o.tags tree) :
    ∀ r ∈ tree.runs [] o.file o.start, r.Fits s chosen p := by
  obtain ⟨line, rest, htext, -, hstart, hfound⟩ := h.body
  have hsites : SitePath s chosen p [] o.file.path := by
    rw [h.path]
    exact .here p
  rw [hstart]
  exact htree.fits h.read h.tags (fun _ ht => ht) htext hfound hsites

end Templating
