import Templating.Proofs.Include.Fault
import Templating.Proofs.Include.Marker
import Templating.Proofs.Include.SourceMap

/-!
# Where errors come from

An error in an included file is wrapped once for each include tag on the way to that file.  There are
two places where this happens: while files are expanded, from the inside out, and afterwards, when the
expanded text is found to be wrong, from the tags that a document remembers.  Either way the wrappers
are tags that stand in the files, each in the one that the tag before it names.

## What is here

* `Location.Exact` is a place in a file that was read, and `BuildError.Traced` an error whose wrappers
  lead to it.
* `Generator.traced_of_expand` says that the errors of an expansion are traced, and
  `Generator.traced_errorAt` that errors raised in an expanded document are.
-/

set_option autoImplicit false

namespace Templating

/-! ## Traced errors

An error is traced if it can be followed from the template to the place where it came up, with the files
alone: the location of a wrapper has a tag in the file, the path that the tag names leads to the next
file, and so on, until the error itself is about the last one.  That a location is exact is checked
against the file as it was read, in the encoding that was used for it, and not against any text that a
document holds. -/

/-- The location is a place in the text of a file that was read, with both ends between characters, and
with the line that it starts on. -/
structure Location.Exact (s : Surroundings) (chosen : Path → Option TextEncoding) (reads : List Path)
    (l : Location) (text : Text) : Prop where
  read : l.path ∈ reads
  content : s.text? chosen l.path = some text
  order : l.span.start ≤ l.span.stop
  start : text.Boundary l.span.start
  stop : text.Boundary l.span.stop
  line : l.line = 1 + (text.takeBytes l.span.start).count '\n'

namespace BuildError

/-- The file that an error is about. -/
def file? (e : BuildError) : Option Path :=
  match e with
  | io _ p _ | unknownEncoding p | encoding p _ => some p
  | e => e.location?.map Location.path

/-- An error with a location is about the file there. -/
theorem file?_of_location? {e : BuildError} {l : Location} (h : e.location? = some l) :
    e.file? = some l.path := by
  cases e with
  | io => cases h
  | unknownEncoding => cases h
  | encoding => cases h
  | _ => exact congrArg (Option.map Location.path) h

/-- The error came up in the file at a path: it is about that file, or it comes from the file that one
of its include tags names, and says so.  All places in it are places in files that were read. -/
inductive Traced (s : Surroundings) (chosen : Path → Option TextEncoding) (reads : List Path) :
    Path → BuildError → Prop
  | root {p : Path} {e : BuildError} (hroot : e.includeChain = []) (hfile : e.file? = some p)
      (hplace : ∀ l, e.location? = some l → ∃ text, l.Exact s chosen reads text) :
      Traced s chosen reads p e
  | wrapped {p : Path} {text includePath : Text} {l : Location} {e : BuildError} (hpath : l.path = p)
      (hplace : l.Exact s chosen reads text) (htag : IncludeTag.Written text l.span includePath)
      (hsource : Traced s chosen reads (Path.resolve p ⟨includePath⟩) e) :
      Traced s chosen reads p (failedToIncludeFile includePath l e)

end BuildError

variable {s : Surroundings} {chosen : Path → Option TextEncoding} {reads : List Path} {e : BuildError}

/-- A span of a file that was read is an exact place. -/
theorem SourceFile.exact_locate {file : SourceFile} {span : Span} (hread : file.path ∈ reads)
    (htext : s.text? chosen file.path = some file.text) (hspan : file.text.HasSpan span) :
    (file.locate span).Exact s chosen reads file.text where
  read := hread
  content := htext
  order := hspan.order
  start := hspan.start
  stop := hspan.stop
  line := SourceFile.line_locate hspan.start

/-- What an error of one file is about. -/
theorem BuildError.RaisedIn.traced {file : SourceFile} (h : e.RaisedIn file)
    (hread : file.path ∈ reads) (htext : s.text? chosen file.path = some file.text) :
    e.Traced s chosen reads file.path := by
  obtain ⟨hown, span, hspan, hlocation⟩ := h
  refine .root (includeChain_of_isOwn hown) (file?_of_location? hlocation) fun l hl => ?_
  rw [hlocation, Option.some_inj] at hl
  subst hl
  exact ⟨_, SourceFile.exact_locate hread htext hspan⟩

/-- A file that cannot be read is what the error about it names; there is no place in it to point at. -/
theorem FileSystem.traced_of_readText {fs : FileSystem} {path : Path}
    {encoding : Option TextEncoding} (h : fs.readText path encoding = .error e) :
    e.Traced s chosen reads path := by
  rcases eq_of_readText h with ⟨cause, rfl⟩ | rfl | ⟨used, rfl⟩
  · exact .root rfl rfl nofun
  · exact .root rfl rfl nofun
  · exact .root rfl rfl nofun

/-! ## Errors of expansions

While files are expanded, an error is wrapped on its way out, by the tag that was being expanded in each
file.  For the wrapper to be exact, the file with the tag must have been read, its text must be what the
surroundings say, and the tag must stand in it (`Reading`, `StandsIn`).  These are kept from file to
file, so that each step of the induction has to look at one file and one tag. -/

/-- The tag stands in the file and names what its path leads to from there. -/
structure IncludeTag.StandsIn (tag : IncludeTag) (file : SourceFile) : Prop where
  written : IncludeTag.Written file.text tag.span tag.includePath
  target : tag.target = Path.resolve file.path ⟨tag.includePath⟩

/-- The tags that are found in a file stand in it. -/
theorem IncludeTag.standsIn_of_findAll {path : Path} {text : Text} {tags : List IncludeTag}
    (h : IncludeTag.findAll (.ofSource path text) = .ok tags) :
    ∀ tag ∈ tags, tag.StandsIn ⟨path, text⟩ := by
  intro tag htag
  have hwritten := written_of_findAll h tag htag
  rw [Document.text_ofSource] at hwritten
  exact ⟨hwritten, (found_of_findFrom h).target tag htag⟩

/-- So do the tags of an outline. -/
theorem Outline.standsIn_of_ofText {running : Version} {path : Path} {text : Text} {o : Outline}
    (h : Outline.ofText running path text = .ok o) : ∀ tag ∈ o.tags, tag.StandsIn o.file := by
  obtain ⟨-, -, -, htags, -, hfile, -⟩ := ofText_eq_ok h
  rw [hfile]
  exact IncludeTag.standsIn_of_findAll htags

/-- A traced error, seen from the file with the tag that led to it. -/
theorem BuildError.Traced.failure {file : SourceFile} {tag : IncludeTag}
    (hread : file.path ∈ reads) (htext : s.text? chosen file.path = some file.text)
    (htag : tag.StandsIn file) (h : e.Traced s chosen reads tag.target) :
    (tag.failure file e).Traced s chosen reads file.path := by
  rw [htag.target] at h
  exact .wrapped rfl (SourceFile.exact_locate hread htext htag.written.hasSpan) htag.written h

namespace Expander

/-- What `recordedRule` says of one tag, whatever comes of it. -/
theorem Recorded.of_expandTag {stack : List Path} {file : SourceFile} {tag : IncludeTag}
    {x x' : Expander} {r : Except BuildError Document} (h : Recorded x)
    (hrun : expandTag s stack file tag x = (r, x')) : Recorded x' ∧ x.reads ⊆ x'.reads := by
  obtain ⟨hrecorded, hsubset, -⟩ := (recordedRule s).tag stack file tag x h
  rw [hrun] at hrecorded hsubset
  exact ⟨hrecorded, hsubset⟩

/-- What `recordedRule` says of a row of tags. -/
theorem Recorded.of_expandTags {stack : List Path} {file : SourceFile} {cursor : Nat}
    {tags : List IncludeTag} {x x' : Expander} {r : Except BuildError (List Piece)}
    (h : Recorded x) (hfile : file.path ∈ x.reads)
    (hrun : expandTags s stack file cursor tags x = (r, x')) :
    Recorded x' ∧ x.reads ⊆ x'.reads := by
  obtain ⟨hrecorded, hsubset, -⟩ := (recordedRule s).tags stack file cursor tags x hfile h
  rw [hrun] at hrecorded hsubset
  exact ⟨hrecorded, hsubset⟩

/-- What is known of a file whose tags are being expanded. -/
structure Reading (s : Surroundings) (chosen : Path → Option TextEncoding) (stack : List Path)
    (file : SourceFile) (x : Expander) : Prop where
  covers : Covers chosen stack
  recorded : Recorded x
  read : file.path ∈ x.reads
  text : s.text? chosen file.path = some file.text

/-- The next file is read like the one before. -/
theorem Reading.next {stack : List Path} {file : SourceFile} {x : Expander} {p : Path} {text : Text}
    {encoding : TextEncoding} (h : Reading s chosen stack file x) (hp : p.Folded)
    (hs : ∀ q ∈ stack, ¬ Path.Same q p) (hread : s.files.readText p none = .ok (text, encoding)) :
    Reading s chosen (stack ++ [p]) ⟨p, text⟩ (x.note p) where
  covers := h.covers.append p
  recorded := h.recorded.note p
  read := List.mem_append_right _ (List.mem_singleton_self p)
  text := text?_of_read h.covers hp hs hread

/-- **Every error of a run is traced** from the file whose tags are being expanded.  Errors that come up
at a tag of that file are about the file itself; all others are traced from the file that the tag leads
to, and wrapped. -/
theorem tracedRule (s : Surroundings) (chosen : Path → Option TextEncoding) :
    Rule s
      (fun stack file tag x r x' => Reading s chosen stack file x → tag.StandsIn file →
        tag.target.Folded → ∀ e, r = .error e → e.Traced s chosen x'.reads file.path)
      (fun stack file _ tags x r x' => Reading s chosen stack file x →
        (∀ tag ∈ tags, tag.StandsIn file ∧ tag.target.Folded) →
        ∀ e, r = .error e → e.Traced s chosen x'.reads file.path) where
  known _ := fun _ _ _ => nofun
  cyclic _ _ := by
    rintro hreading htag _ _ ⟨⟩
    refine .root rfl rfl ?_
    rintro _ ⟨⟩
    exact ⟨_, SourceFile.exact_locate hreading.read hreading.text htag.written.hasSpan⟩
  missing _ _ _ := by
    rintro hreading htag _ _ ⟨⟩
    refine .root rfl rfl ?_
    rintro _ ⟨⟩
    exact ⟨_, SourceFile.exact_locate hreading.read hreading.text htag.written.hasSpan⟩
  unreadable _ _ _ hread := by
    rintro hreading htag _ _ ⟨⟩
    exact .failure (subset_note _ _ hreading.read) hreading.text htag
      (FileSystem.traced_of_readText hread)
  refused _ hs _ hread ho := by
    rintro hreading htag htarget _ ⟨⟩
    have hnext := hreading.next htarget hs hread
    exact .failure (subset_note _ _ hreading.read) hreading.text htag
      ((Outline.raisedIn_of_ofText ho).traced hnext.read hnext.text)
  failed _ hs _ hread ho hrun ih := by
    rintro hreading htag htarget _ ⟨⟩
    obtain ⟨hfile, -⟩ := Outline.describes_of_ofText ho
    have hnext := hreading.next htarget hs hread
    rw [← hfile] at hnext
    -- The tags of the next file may have read more files, and none is forgotten.
    have hsubset := (hnext.recorded.of_expandTags hnext.read hrun).2
    have hsource := ih hnext (fun t ht =>
      ⟨Outline.standsIn_of_ofText ho t ht, folded_of_ofText ho t ht⟩) _ rfl
    rw [hfile] at hsource
    exact .failure (hsubset (subset_note _ _ hreading.read)) hreading.text htag hsource
  expanded _ _ _ _ _ _ _ := fun _ _ _ => nofun
  nil := by
    rintro _ _ _ _ _ _ _ ⟨⟩
  stopped _ ih := by
    rintro hreading htags _ ⟨⟩
    obtain ⟨htag, htarget⟩ := htags _ (List.mem_cons_self ..)
    exact ih hreading htag htarget _ rfl
  stoppedLater hrun _ _ ihlater := by
    rintro hreading htags _ ⟨⟩
    obtain ⟨hrecorded, hsubset⟩ := hreading.recorded.of_expandTag hrun
    exact ihlater ⟨hreading.covers, hrecorded, hsubset hreading.read, hreading.text⟩
      (fun t ht => htags t (List.mem_cons_of_mem _ ht)) _ rfl
  cons _ _ _ _ := fun _ _ => nofun

end Expander

/-- The errors of an expansion are traced from the file of the template, whether it is that file that
cannot be read or scanned, or one that it leads to. -/
theorem Generator.traced_of_expand {g : Generator} {template path : Path}
    {encoding : Option TextEncoding} (hpath : g.absolute template = .ok path)
    (h : (g.expand template encoding).result = .error e) :
    e.Traced g.surroundings (asked path encoding) (g.expand template encoding).reads path := by
  cases hread : g.files.readText path encoding with
  | error e' =>
    rw [expand, hpath] at h
    dsimp only at h
    rw [hread] at h
    cases h
    exact FileSystem.traced_of_readText hread
  | ok r =>
    obtain ⟨text, used⟩ := r
    have htext := text?_of_readText hread
    rw [expand_of_readText hpath hread] at h ⊢
    obtain h := map_eq_error.1 h
    cases ho : Outline.ofText g.surroundings.running path text with
    | error e' =>
      rw [Expander.expand, ho] at h ⊢
      cases h
      exact (Outline.raisedIn_of_ofText ho).traced (List.mem_singleton_self path) htext
    | ok o =>
      rw [Expander.expand_of_ofText ho] at h ⊢
      obtain ⟨hfile, -⟩ := Outline.describes_of_ofText ho
      have hreading : Expander.Reading g.surroundings (asked path encoding) [path] o.file
          { reads := [path] } := by
        rw [hfile]
        exact ⟨covers_asked path encoding, fun entry hentry => absurd hentry List.not_mem_nil,
          List.mem_singleton_self path, htext⟩
      have htraced := (Expander.tracedRule _ _).tags [path] o.file o.start o.tags _ hreading
        (fun t ht => ⟨Outline.standsIn_of_ofText ho t ht, Expander.folded_of_ofText ho t ht⟩) e
        (map_eq_error.1 h)
      rw [hfile] at htraced ⊢
      exact htraced

/-! ## Errors in expanded documents

Afterwards there are no tags being expanded any more.  The document remembers for each run the tags that
its text came through, from the template on, and wraps an error in them.  They are a path of tags
(`SitePath`), which is what a traced error needs.  What is left to show is that their files were read:
the marker that each of them left in the text is proof of that. -/

/-- The wrappers that a document adds are the tags of a path of include tags. -/
theorem SitePath.traced {p q : Path} {sites : List IncludeSite} (h : SitePath s chosen p sites q)
    (hreads : ∀ site ∈ sites, site.location.path ∈ reads) (he : e.Traced s chosen reads q) :
    (Document.wrap sites e).Traced s chosen reads p := by
  induction h with
  | here p => exact he
  | @tag p q text tags tag sites htext htags htag _ ih =>
    have hstands := IncludeTag.standsIn_of_findAll htags tag htag
    have hplace := SourceFile.exact_locate (hreads _ (List.mem_cons_self ..)) htext
      hstands.written.hasSpan
    refine .wrapped rfl hplace hstands.written ?_
    exact ih (fun site hsite => hreads site (List.mem_cons_of_mem _ hsite)) he

/-- A file whose include tag text came through has text of its own among the runs. -/
theorem IncludeTree.exists_run_of_site (tree : IncludeTree) (sites : List IncludeSite)
    (file : SourceFile) (cursor : Nat) :
    ∀ r ∈ tree.runs sites file cursor, ∀ site ∈ r.sites, site ∈ sites ∨
      ∃ r' ∈ tree.runs sites file cursor, r'.text ≠ [] ∧ r'.file.path = site.location.path := by
  induction tree generalizing sites file cursor with
  | done =>
    intro r hr site hsite
    rw [runs] at hr
    obtain rfl := List.mem_singleton.1 hr
    exact .inl hsite
  | tag t o below later ihbelow ihlater =>
    intro r hr site hsite
    simp only [runs, List.mem_append, List.mem_cons, List.not_mem_nil, or_false] at hr
    rcases hr with (((rfl | rfl) | hr) | (rfl | rfl)) | hr
    · exact .inl hsite
    · exact .inl hsite
    · rcases ihbelow _ _ _ r hr site hsite with hsite | ⟨r', hr', hne, hpath⟩
      · rcases List.mem_append.1 hsite with hsite | hsite
        · exact .inl hsite
        · -- The marker in front of the included file stands in the file of the tag.
          obtain rfl := List.mem_singleton.1 hsite
          refine .inr ⟨⟨IncludeTag.beginMarker t.includePath, file, .generated t, sites⟩, ?_,
            IncludeTag.beginMarker_ne_nil _, rfl⟩
          simp [runs]
      · refine .inr ⟨r', ?_, hne, hpath⟩
        simp [runs, hr']
    · exact .inl hsite
    · exact .inl hsite
    · rcases ihlater _ _ _ r hr site hsite with hsite | ⟨r', hr', hne, hpath⟩
      · exact .inl hsite
      · refine .inr ⟨r', ?_, hne, hpath⟩
        simp [runs, hr']

namespace Generator

variable {g : Generator} {template : Path} {encoding : Option TextEncoding} {t : ExpandedTemplate}

/-- An error raised at a span of an expanded text. -/
theorem traced_errorAt (h : (g.expand template encoding).result = .ok t) {span : Span}
    (hlt : span.start < t.document.size) (hspan : t.document.text.HasSpan span)
    {error : Location → BuildError} (hroot : ∀ l, (error l).includeChain = [])
    (hlocation : ∀ l, (error l).location? = some l) :
    (t.document.errorAt span error).Traced g.surroundings (asked t.path encoding)
      (g.expand template encoding).reads t.path := by
  obtain ⟨-, o, tree, ho, htree, hd⟩ := unfolds_of_expand h
  have haccepted := Surroundings.accepted_of_outline? ho
  have hpieces : t.document.pieces = (tree.runs [] o.file o.start).flatMap Run.pieces := by
    rw [hd]
    exact tree.pieces_eq_flatMap_runs o.file o.start
  have hsize : t.document.size = Text.size ((tree.runs [] o.file o.start).flatMap Run.text) := by
    rw [Document.size, Document.text, hpieces, Run.text_flatMap_pieces]
  rw [hsize] at hlt
  obtain ⟨before, r, after, hsplit, hlo, hhi⟩ := Run.exists_append _ hlt
  have hmem : r ∈ tree.runs [] o.file o.start := by
    rw [hsplit]
    exact List.mem_append_right _ (List.mem_cons_self ..)
  have hne : r.text ≠ [] := by
    intro hnil
    rw [hnil, Text.size_nil] at hhi
    omega
  have hfits := haccepted.fits htree r hmem
  -- A tag that the run came through has a marker in the text of its own file.
  have hsites : ∀ site ∈ r.sites, site.location.path ∈ (g.expand template encoding).reads := by
    intro site hsite
    rcases tree.exists_run_of_site [] o.file o.start r hmem site hsite with
      hno | ⟨r', hr', hne', hpath⟩
    · exact absurd hno List.not_mem_nil
    · rw [← hpath]
      exact mem_reads_of_run h hpieces hr' hne'
  have hread := mem_reads_of_run h hpieces hmem hne
  rw [hsplit] at hpieces
  have hplace := Document.hasSpan_locate hpieces hlo hhi hspan hfits
  have hlocate := Document.locate_eq_locate hpieces hlo hhi
  have hexact := SourceFile.exact_locate hread hfits.file hplace
  rw [← hlocate] at hexact
  have hpath : (t.document.locate span).path = r.file.path := by
    rw [hlocate]
    rfl
  -- The error is raised at the place of the span and wrapped in the tags of the run.
  rw [Document.errorAt, Document.sites, Document.segmentAt?_of_runs hpieces hlo hhi]
  refine hfits.sites.traced hsites (.root (hroot _) ?_ fun l hl => ?_)
  · rw [BuildError.file?_of_location? (hlocation _), hpath]
  · rw [hlocation, Option.some_inj] at hl
    subst hl
    exact ⟨_, hexact⟩

end Generator
end Templating
