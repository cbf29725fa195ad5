import Templating.Proofs.Document.Lookup
import Templating.Proofs.Include.Layout
import Templating.Proofs.Include.Nesting

/-!
# The map back to the files

Every offset of an expanded text is mapped to the place that the text there came from, and to the
include tags that it came through.

The text of an expansion is a row of runs, and a run is either a copy of a part of a file or was made up
for one tag (`Run`).  The map is kept as a table of segments, though, and answers by looking up an
offset in it.  So the work is to see that the table has the runs in their order, and then that a span
that starts in a run, and may end far behind it, is cut where the run ends.

## What is here

* `Expander.Recorded` says that a file text was taken from is one that was read, and
  `Generator.mem_reads_of_expand` says it of a template.
* `Document.hasSpan_locate`: a span of an expanded text is mapped to one of the file it starts in.
* `Document.Pinpoints` is what a document has to say about a span that starts in a run, and
  `Generator.expand_mapsBack` says that the expansion of a template does for every span.
-/

set_option autoImplicit false

namespace Templating

/-! ## The files that were read

The map may lead to no file that was not read.  A text can come from a file that is remembered from long
before, so this is an invariant of the memory (`Recorded`), which every run keeps and which reading more
files cannot break. -/

/-- A copy of a part of a file is from that file. -/
theorem Piece.file_of_mem_copied {file : SourceFile} {span : Span} {p : Piece}
    (h : p ∈ Piece.copied file span) : p.file = file := by
  rw [copied] at h
  split at h
  · simp at h
  · obtain rfl := List.mem_singleton.1 h
    rfl

/-- A text made up for a tag belongs to the file with the tag. -/
theorem Piece.file_of_mem_generatedAt {file : SourceFile} {span : Span} {text : Text} {p : Piece}
    (h : p ∈ Piece.generatedAt file span text) : p.file = file := by
  rw [generatedAt] at h
  split at h
  · simp at h
  · obtain rfl := List.mem_singleton.1 h
    rfl

/-- What a tag is replaced by is from the file with the tag, or from where the expansion of the included
file is from. -/
theorem IncludeTag.file_of_mem_replacement {tag : IncludeTag} {file : SourceFile} {d : Document}
    {p : Piece} (h : p ∈ tag.replacement file d) :
    p.file = file ∨ ∃ q ∈ d.pieces, q.file = p.file := by
  simp only [replacement, List.mem_append, List.mem_map] at h
  rcases h with ((h | ⟨q, hq, rfl⟩) | h) | h
  · exact .inl (Piece.file_of_mem_generatedAt h)
  · exact .inr ⟨q, hq, rfl⟩
  · exact .inl (Piece.file_of_mem_generatedAt h)
  · exact .inl (Piece.file_of_mem_generatedAt h)

namespace Expander

/-- All text that is remembered was taken from files that were read. -/
def Recorded (x : Expander) : Prop :=
  ∀ entry ∈ x.known, ∀ p ∈ entry.2.pieces, p.file.path ∈ x.reads

/-- Files that were read stay so. -/
theorem subset_note (x : Expander) (p : Path) : x.reads ⊆ (x.note p).reads :=
  List.subset_append_left _ _

theorem Recorded.note {x : Expander} (h : Recorded x) (p : Path) : Recorded (x.note p) :=
  fun entry hentry q hq => subset_note x p (h entry hentry q hq)

/-- A file that is looked into is one that was read. -/
theorem mem_note_of_ofText {running : Version} {x : Expander} {p : Path} {text : Text} {o : Outline}
    (ho : Outline.ofText running p text = .ok o) : o.file.path ∈ (x.note p).reads := by
  rw [(Outline.describes_of_ofText ho).file]
  exact List.mem_append_right _ (List.mem_singleton_self p)

/-- **A run keeps the memory recorded**, forgets no file that it has read, and takes its text from files
that were read by then.  Tags are only ever expanded in files that were read, which is why the second
part asks for that. -/
theorem recordedRule (s : Surroundings) :
    Rule s
      (fun _ _ _ x r x' => Recorded x → Recorded x' ∧ x.reads ⊆ x'.reads ∧
        ∀ d, r = .ok d → ∀ p ∈ d.pieces, p.file.path ∈ x'.reads)
      (fun _ file _ _ x r x' => file.path ∈ x.reads → Recorded x → Recorded x' ∧
        x.reads ⊆ x'.reads ∧ ∀ pieces, r = .ok pieces → ∀ p ∈ pieces, p.file.path ∈ x'.reads) where
  known hx := by
    intro hrecorded
    refine ⟨hrecorded, List.Subset.refl _, ?_⟩
    rintro _ ⟨⟩
    obtain ⟨entry, hentry, rfl⟩ := Option.map_eq_some_iff.1 hx
    exact hrecorded entry (List.mem_of_find?_eq_some hentry)
  cyclic _ _ := fun hrecorded => ⟨hrecorded, List.Subset.refl _, nofun⟩
  missing _ _ _ := fun hrecorded => ⟨hrecorded, List.Subset.refl _, nofun⟩
  unreadable _ _ _ _ := fun hrecorded => ⟨hrecorded.note _, subset_note _ _, nofun⟩
  refused _ _ _ _ _ := fun hrecorded => ⟨hrecorded.note _, subset_note _ _, nofun⟩
  failed _ _ _ _ ho _ ih := by
    intro hrecorded
    obtain ⟨hrecorded', hsubset, -⟩ := ih (mem_note_of_ofText ho) (hrecorded.note _)
    exact ⟨hrecorded', List.Subset.trans (subset_note _ _) hsubset, nofun⟩
  expanded _ _ _ _ ho _ ih := by
    intro hrecorded
    obtain ⟨hrecorded', hsubset, hpieces⟩ := ih (mem_note_of_ofText ho) (hrecorded.note _)
    -- What is remembered in the end is one expansion more, whose text is the one just made.
    refine ⟨?_, List.Subset.trans (subset_note _ _) hsubset, ?_⟩
    · intro entry hentry
      rcases List.mem_cons.1 hentry with rfl | hentry
      · exact hpieces _ rfl
      · exact hrecorded' entry hentry
    · rintro _ ⟨⟩
      exact hpieces _ rfl
  nil := by
    intro _ file cursor x hfile hrecorded
    refine ⟨hrecorded, List.Subset.refl _, ?_⟩
    rintro _ ⟨⟩ p hp
    rw [Piece.file_of_mem_copied hp]
    exact hfile
  stopped _ ih := by
    intro _ hrecorded
    obtain ⟨hrecorded', hsubset, -⟩ := ih hrecorded
    exact ⟨hrecorded', hsubset, nofun⟩
  stoppedLater _ ih _ ihlater := by
    intro hfile hrecorded
    obtain ⟨hrecorded', hsubset, -⟩ := ih hrecorded
    obtain ⟨hrecorded'', hsubset', -⟩ := ihlater (hsubset hfile) hrecorded'
    exact ⟨hrecorded'', List.Subset.trans hsubset hsubset', nofun⟩
  cons _ ih _ ihlater := by
    intro hfile hrecorded
    obtain ⟨hrecorded', hsubset, hd⟩ := ih hrecorded
    obtain ⟨hrecorded'', hsubset', hpieces⟩ := ihlater (hsubset hfile) hrecorded'
    refine ⟨hrecorded'', List.Subset.trans hsubset hsubset', ?_⟩
    rintro _ ⟨⟩ p hp
    rcases List.mem_append.1 hp with hp | hp
    · rcases List.mem_append.1 hp with hp | hp
      · rw [Piece.file_of_mem_copied hp]
        exact hsubset' (hsubset hfile)
      · -- Text of the included file was read before the tags behind this one were come to.
        rcases IncludeTag.file_of_mem_replacement hp with hp | ⟨q, hq, hp⟩
        · rw [hp]
          exact hsubset' (hsubset hfile)
        · rw [← hp]
          exact hsubset' (hd _ rfl q hq)
    · exact hpieces _ rfl p hp

end Expander

/-- All text of an expanded template was taken from files that were read. -/
theorem Generator.mem_reads_of_expand {g : Generator} {template : Path}
    {encoding : Option TextEncoding} {t : ExpandedTemplate}
    (h : (g.expand template encoding).result = .ok t) :
    ∀ p ∈ t.document.pieces, p.file.path ∈ (g.expand template encoding).reads := by
  have hresult := h
  rw [result_expand] at hresult
  obtain ⟨path, hpath, hresult⟩ := bind_eq_ok.1 hresult
  obtain ⟨⟨text, used⟩, hread, hresult⟩ := bind_eq_ok.1 hresult
  obtain ⟨d, hd, hresult⟩ := bind_eq_ok.1 hresult
  cases hresult
  rw [Expander.fst_expand] at hd
  obtain ⟨o, ho, hd⟩ := bind_eq_ok.1 hd
  obtain ⟨pieces, hpieces, hd⟩ := bind_eq_ok.1 hd
  cases hd
  have hfile : o.file.path ∈ [path] := by
    rw [(Outline.describes_of_ofText ho).file]
    exact List.mem_singleton_self path
  -- Nothing is remembered in the beginning, and the template is the one file that was read.
  have hrecorded := (Expander.recordedRule g.surroundings).tags [path] o.file o.start o.tags
    { reads := [path] } hfile (fun entry hentry => absurd hentry List.not_mem_nil)
  rw [expand_of_readText hpath hread, Expander.expand_of_ofText ho]
  exact hrecorded.2.2 pieces hpieces

/-! ## Spans of a document

Here a document is given by its runs, with one run `r` singled out in which the span starts.  The offset
where the run starts is the size of the text before it, which is how the table has it.  The first lemmas
look the span up; the others compare what is found with the file. -/

/-- The line of a place is counted from the line breaks in front of it. -/
theorem SourceFile.line_locate {f : SourceFile} {span : Span}
    (h : Text.Boundary f.text span.start) :
    (f.locate span).line = 1 + (f.text.takeBytes span.start).count '\n' := by
  obtain ⟨front, back, htext, hsize⟩ := h
  show f.lineOf span.start = _
  rw [← hsize, lineOf_append htext, htext, Text.takeBytes_append_of_size]

/-- A run with any text has a piece in the table. -/
theorem Run.exists_mem_pieces {r : Run} (h : r.text ≠ []) : ∃ p ∈ r.pieces, p.file = r.file := by
  rw [pieces, if_neg h]
  exact ⟨_, List.mem_singleton_self _, rfl⟩

namespace Document

/-- What a document has to say about a span that starts in a run, where the run starts at offset
`base`: which part of which file the text up to the end of the run is a copy of, or which tag it was
made up for, on which line that is, and through which tags it was come to from the file at `root`. -/
structure Pinpoints (s : Surroundings) (chosen : Path → Option TextEncoding) (reads : List Path)
    (root : Path) (d : Document) (r : Run) (base : Nat) (span : Span) : Prop where
  path : (d.locate span).path = r.file.path
  read : r.file.path ∈ reads
  text : s.text? chosen r.file.path = some r.file.text
  copied : ∀ origin, r.origin = .copied origin →
    (d.locate span).span.start = origin.start + (span.start - base) ∧
      r.file.text.slice (d.locate span).span
        = d.text.slice ⟨span.start, min span.stop (base + r.text.size)⟩
  generated : ∀ tag, r.origin = .generated tag → (d.locate span).span = tag.span ∧
    ∃ tags, IncludeTag.findAll (.ofSource r.file.path r.file.text) = .ok tags ∧ tag ∈ tags
  line : (d.locate span).line
    = 1 + (r.file.text.takeBytes (d.locate span).span.start).count '\n'
  sites : d.sites span.start = r.sites
  route : SitePath s chosen root (d.sites span.start) (d.locate span).path

variable {d : Document} {before after : List Run} {r : Run} {span : Span}

/-- An offset in a run is looked up as that run. -/
theorem segmentAt?_of_runs (hd : d.pieces = (before ++ r :: after).flatMap Run.pieces)
    (hstart : Text.size (before.flatMap Run.text) ≤ span.start)
    (hstop : span.start < Text.size (before.flatMap Run.text) + r.text.size) :
    d.segmentAt? span.start = some ⟨Text.size (before.flatMap Run.text),
      ⟨r.text, r.file, r.origin.span, r.origin.isGenerated, r.sites⟩⟩ := by
  have hne : r.text ≠ [] := by
    intro hnil
    rw [hnil, Text.size_nil] at hstop
    omega
  have hpieces : d.pieces = before.flatMap Run.pieces
      ++ ⟨r.text, r.file, r.origin.span, r.origin.isGenerated, r.sites⟩
        :: after.flatMap Run.pieces := by
    rw [hd, List.flatMap_append, List.flatMap_cons, Run.pieces, if_neg hne]
    rfl
  rw [← Run.text_flatMap_pieces] at hstart hstop ⊢
  exact segmentAt?_of_append hpieces hstart hstop

/-- Locating a span asks the segment that its start is looked up as. -/
theorem locate_of_runs (hd : d.pieces = (before ++ r :: after).flatMap Run.pieces)
    (hstart : Text.size (before.flatMap Run.text) ≤ span.start)
    (hstop : span.start < Text.size (before.flatMap Run.text) + r.text.size) :
    d.locate span = Segment.locate ⟨Text.size (before.flatMap Run.text),
      ⟨r.text, r.file, r.origin.span, r.origin.isGenerated, r.sites⟩⟩ span := by
  rw [locate, segmentAt?_of_runs hd hstart hstop]

/-- The text of a document around one of its runs. -/
theorem text_of_runs (hd : d.pieces = (before ++ r :: after).flatMap Run.pieces) :
    d.text = before.flatMap Run.text ++ r.text ++ after.flatMap Run.text := by
  rw [text, hd, Run.text_flatMap_pieces, List.flatMap_append, List.flatMap_cons, List.append_assoc]

/-- The span that a copied run is located at. -/
theorem locate_copied {a : Text} (hd : d.pieces = (before ++ r :: after).flatMap Run.pieces)
    (hstart : Text.size (before.flatMap Run.text) ≤ span.start)
    (hstop : span.start < Text.size (before.flatMap Run.text) + r.text.size)
    (hle : span.start ≤ span.stop) (horigin : r.origin = .copied ⟨a.size, a.size + r.text.size⟩) :
    (d.locate span).span = ⟨a.size + (span.start - Text.size (before.flatMap Run.text)),
      a.size + (min span.stop (Text.size (before.flatMap Run.text) + r.text.size)
        - Text.size (before.flatMap Run.text))⟩ := by
  rw [locate_of_runs hd hstart hstop, horigin]
  -- The end of the span is cut at the end of the run, and stays behind its start.
  generalize Text.size (before.flatMap Run.text) = base at *
  show Span.mk _ (max _ (min _ _)) = Span.mk _ _
  rw [Span.mk.injEq, Span.size]
  dsimp only [Origin.span]
  refine ⟨rfl, ?_⟩
  omega

/-- A span that starts in a middle part of a text, cut off where that part ends. -/
theorem slice_middle {front middle back : Text} (hstart : front.size ≤ span.start)
    (hstop : span.start < front.size + middle.size)
    (hspan : Text.HasSpan (front ++ middle ++ back) span) (a c : Text) :
    Text.slice (a ++ middle ++ c) ⟨a.size + (span.start - front.size),
        a.size + (min span.stop (front.size + middle.size) - front.size)⟩
      = Text.slice (front ++ middle ++ back)
        ⟨span.start, min span.stop (front.size + middle.size)⟩ := by
  have hle := hspan.order
  -- Moved to the middle part alone, the span can be put into any other text that has this part.
  have hmiddle := hspan.middle hstart (Nat.le_of_lt hstop)
  rw [Text.slice_inner hmiddle.start hmiddle.stop hmiddle.order,
    ← Text.slice_inner (a := front) (c := back) hmiddle.start hmiddle.stop hmiddle.order]
  congr 2
  · dsimp only
    omega
  · dsimp only
    omega

/-- Wherever a span is located, the line is that of the place. -/
theorem locate_eq_locate (hd : d.pieces = (before ++ r :: after).flatMap Run.pieces)
    (hstart : Text.size (before.flatMap Run.text) ≤ span.start)
    (hstop : span.start < Text.size (before.flatMap Run.text) + r.text.size) :
    d.locate span = r.file.locate (d.locate span).span := by
  rw [locate_of_runs hd hstart hstop, Segment.locate]
  dsimp only
  split
  · rfl
  · rfl

variable {s : Surroundings} {chosen : Path → Option TextEncoding} {reads : List Path} {root : Path}

/-- What a span is located at is a span of the file. -/
theorem hasSpan_locate (hd : d.pieces = (before ++ r :: after).flatMap Run.pieces)
    (hstart : Text.size (before.flatMap Run.text) ≤ span.start)
    (hstop : span.start < Text.size (before.flatMap Run.text) + r.text.size)
    (hspan : d.text.HasSpan span) (hfits : r.Fits s chosen root) :
    r.file.text.HasSpan (d.locate span).span := by
  cases horigin : r.origin with
  | copied origin =>
    obtain ⟨a, c, hfile, rfl⟩ := hfits.copied origin horigin
    rw [locate_copied hd hstart hstop hspan.order horigin, hfile]
    rw [text_of_runs hd] at hspan
    exact (hspan.middle hstart (Nat.le_of_lt hstop)).inside a c
  | generated tag =>
    -- A text that was made up has no place of its own; it is located at the tag, which is in the file.
    obtain ⟨-, tags, htags, htag⟩ := hfits.generated tag horigin
    have hwritten := IncludeTag.written_of_findAll htags tag htag
    rw [text_ofSource] at hwritten
    rw [locate_of_runs hd hstart hstop, horigin]
    exact hwritten.hasSpan

/-- A document pinpoints every span that starts in a run that fits its file. -/
theorem pinpoints_of_fits (hd : d.pieces = (before ++ r :: after).flatMap Run.pieces)
    (hstart : Text.size (before.flatMap Run.text) ≤ span.start)
    (hstop : span.start < Text.size (before.flatMap Run.text) + r.text.size)
    (hspan : d.text.HasSpan span) (hfits : r.Fits s chosen root) (hread : r.file.path ∈ reads) :
    d.Pinpoints s chosen reads root r (Text.size (before.flatMap Run.text)) span := by
  have hlocate := locate_eq_locate hd hstart hstop
  have hpath : (d.locate span).path = r.file.path := by
    rw [hlocate]
    rfl
  have hsites : d.sites span.start = r.sites := by
    rw [sites, segmentAt?_of_runs hd hstart hstop]
  refine ⟨hpath, hread, hfits.file, ?_, ?_, ?_, hsites, ?_⟩
  · intro origin horigin
    obtain ⟨a, c, hfile, rfl⟩ := hfits.copied origin horigin
    rw [locate_copied hd hstart hstop hspan.order horigin]
    refine ⟨rfl, ?_⟩
    rw [text_of_runs hd] at hspan
    rw [hfile, text_of_runs hd]
    exact slice_middle hstart hstop hspan a c
  · intro tag horigin
    rw [locate_of_runs hd hstart hstop, horigin]
    exact ⟨rfl, (hfits.generated tag horigin).2⟩
  · rw [hlocate]
    exact SourceFile.line_locate (hasSpan_locate hd hstart hstop hspan hfits).start
  · rw [hsites, hpath]
    exact hfits.sites

end Document

/-! ## Templates

Every offset of an expansion lies in a run, and every run of an include tree fits its file (`Run.Fits`).
The file was read because the run has text there, and the text of an expansion is from files that were
read. -/

/-- Every offset of a text made of runs lies in one of them. -/
theorem Run.exists_append (runs : List Run) {n : Nat} (h : n < Text.size (runs.flatMap Run.text)) :
    ∃ before r after, runs = before ++ r :: after ∧ Text.size (before.flatMap Run.text) ≤ n ∧
      n < Text.size (before.flatMap Run.text) + r.text.size := by
  induction runs generalizing n with
  | nil => exact absurd h (Nat.not_lt_zero n)
  | cons r runs ih =>
    rw [List.flatMap_cons, Text.size_append] at h
    -- In the first run, or as far behind its end in the others.
    by_cases hn : n < r.text.size
    · exact ⟨[], r, runs, rfl, Nat.zero_le n, by simpa using hn⟩
    · obtain ⟨before, r', after, rfl, hlo, hhi⟩ := ih (n := n - r.text.size) (by omega)
      refine ⟨r :: before, r', after, rfl, ?_, ?_⟩
      · rw [List.flatMap_cons, Text.size_append]
        omega
      · rw [List.flatMap_cons, Text.size_append]
        omega

namespace Generator

variable {g : Generator} {template : Path} {encoding : Option TextEncoding} {t : ExpandedTemplate}

/-- A run with any text is from a file that was read. -/
theorem mem_reads_of_run (h : (g.expand template encoding).result = .ok t) {runs : List Run}
    (hpieces : t.document.pieces = runs.flatMap Run.pieces) {r : Run} (hr : r ∈ runs)
    (hne : r.text ≠ []) : r.file.path ∈ (g.expand template encoding).reads := by
  obtain ⟨p, hp, hfile⟩ := Run.exists_mem_pieces hne
  rw [← hfile]
  refine mem_reads_of_expand h p ?_
  rw [hpieces]
  exact List.mem_flatMap.2 ⟨r, hr, hp⟩

/-- The text of an expanded template is made of the runs that the include tree of the template stands
for, and every span is pinpointed in the run that it starts in. -/
def MapsBack (g : Generator) (template : Path) (encoding : Option TextEncoding)
    (t : ExpandedTemplate) : Prop :=
  ∃ o tree, g.surroundings.outline? (asked t.path encoding) t.path = some o ∧
    IncludeTree.Grows g.surroundings (asked t.path encoding) o.tags tree ∧
    t.document.text = (tree.runs [] o.file o.start).flatMap Run.text ∧
    ∀ span : Span, span.start < t.document.size → span.start ≤ span.stop →
      Text.Boundary t.document.text span.start → Text.Boundary t.document.text span.stop →
      ∃ before r after, tree.runs [] o.file o.start = before ++ r :: after ∧
        Text.size (before.flatMap Run.text) ≤ span.start ∧
        span.start < Text.size (before.flatMap Run.text) + r.text.size ∧
        t.document.Pinpoints g.surroundings (asked t.path encoding)
          (g.expand template encoding).reads t.path r (Text.size (before.flatMap Run.text)) span

/-- **The expansion of a template maps every span back to where its text came from.** -/
theorem expand_mapsBack (h : (g.expand template encoding).result = .ok t) :
    g.MapsBack template encoding t := by
  obtain ⟨-, o, tree, ho, htree, hd⟩ := unfolds_of_expand h
  have haccepted := Surroundings.accepted_of_outline? ho
  have hpieces : t.document.pieces = (tree.runs [] o.file o.start).flatMap Run.pieces := by
    rw [hd]
    exact tree.pieces_eq_flatMap_runs o.file o.start
  have hruns : t.document.text = (tree.runs [] o.file o.start).flatMap Run.text := by
    rw [Document.text, hpieces, Run.text_flatMap_pieces]
  refine ⟨o, tree, ho, htree, hruns, fun span hlt hle hbegin hend => ?_⟩
  rw [Document.size, hruns] at hlt
  obtain ⟨before, r, after, hsplit, hlo, hhi⟩ := Run.exists_append _ hlt
  rw [hsplit] at hpieces
  have hfits : r.Fits g.surroundings (asked t.path encoding) t.path := by
    refine haccepted.fits htree r ?_
    rw [hsplit]
    exact List.mem_append_right _ (List.mem_cons_self ..)
  have hread : r.file.path ∈ (g.expand template encoding).reads := by
    refine mem_reads_of_run h hpieces (List.mem_append_right _ (List.mem_cons_self ..)) ?_
    -- An offset lies in the run, so it is not empty.
    intro hnil
    rw [hnil, Text.size_nil] at hhi
    omega
  exact ⟨before, r, after, hsplit, hlo, hhi,
    Document.pinpoints_of_fits hpieces hlo hhi (.of_boundaries hbegin hend hle) hfits hread⟩

/-- A template with a directive, and one line of its own on either side of an included file. -/
theorem expand_mapsBack_between_lines :
    let a : Path × Text :=
      (.ofString "/a", "# dswift-tools-version:1.0.10\nfirst\n<%@include file=\"b\"%>\nlast".toList)
    let b : Path × Text := (.ofString "/b", "// dswift-tools-version:1.0.10\nmiddle".toList)
    let g : Generator := ⟨.ofTexts [a, b], .ofString "/", ⟨1, 0, 10, [], []⟩, false⟩
    ∃ t, (g.expand a.1 none).result = .ok t ∧ g.MapsBack a.1 none t := by
  intro a b g
  obtain ⟨t, ht⟩ := @exists_expand g a.1 none (by decide +kernel)
  exact ⟨t, ht, expand_mapsBack ht⟩

end Generator
end Templating
