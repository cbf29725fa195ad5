import Templating.Proofs.Include.Marker
import Templating.Proofs.Include.Walk
import Templating.Proofs.Program.Failure

/-!
# Include tags that are left

Every include tag of a file is replaced, but the markers around what takes its place quote the path in
the tag as it is written.  So the expanded text has an include tag left exactly if the path in one of
the tags that were replaced has one in it, and only then can a program fail for an include tag that
was never expanded.

## What is here

* `Surroundings.Uses` are the include tags of the files that a template leads to, and `IncludeTree.tags`
  those of a tree.
* `IncludeTree.Grows.opening_infix_iff` says where the text of a tree has an opening delimiter of an
  include tag, and `Generator.expand_remainder` what that means for a template.
-/

set_option autoImplicit false

namespace Templating

variable {s : Surroundings} {chosen : Path → Option TextEncoding} {p : Path} {tag : IncludeTag}

/-! ## The tags that are replaced

A tag is replaced if expansion comes to it.  On the side of the files that is to stand in a file that
the template leads to, on the side of an expansion it is to be in its tree.  The tree is finite and has
the tags of a file that is included twice in it twice; as to which tags there are, both agree. -/

/-- The tag stands in an accepted file that the one at `p` leads to. -/
def Surroundings.Uses (s : Surroundings) (chosen : Path → Option TextEncoding) (p : Path)
    (tag : IncludeTag) : Prop :=
  ∃ q o, Relation.ReflTransGen (s.Includes chosen) p q ∧ s.outline? chosen q = some o ∧ tag ∈ o.tags

/-- A tag of a file, or one of a file that a tag of it names. -/
theorem Surroundings.uses_iff {o : Outline} (ho : s.outline? chosen p = some o) :
    s.Uses chosen p tag ↔ tag ∈ o.tags ∨ ∃ t ∈ o.tags, s.Uses chosen t.target tag := by
  constructor
  · rintro ⟨q, o', hreach, ho', htag⟩
    rcases Relation.ReflTransGen.cases_head hreach with rfl | ⟨r, ⟨o'', ho'', t, ht, rfl⟩, hreach⟩
    · rw [ho, Option.some_inj] at ho'
      subst ho'
      exact .inl htag
    · rw [ho, Option.some_inj] at ho''
      subst ho''
      exact .inr ⟨t, ht, q, o', hreach, ho', htag⟩
  · rintro (htag | ⟨t, ht, q, o', hreach, ho', htag⟩)
    · exact ⟨p, o, .refl, ho, htag⟩
    · exact ⟨q, o', .head ⟨o, ho, t, ht, rfl⟩ hreach, ho', htag⟩

/-- The path in an include tag that is used ends before the tag does. -/
theorem Surroundings.Uses.not_closing (h : s.Uses chosen p tag) :
    ¬ outerClosing <:+: tag.includePath := by
  obtain ⟨q, o, -, ho, htag⟩ := h
  have haccepted := accepted_of_outline? ho
  obtain ⟨-, body, -, -, hbody, hpath, -, -⟩ := IncludeTag.written_of_findAll haccepted.tags tag htag
  exact fun hclosing => hbody (hclosing.trans (Attribute.infix_of_find hpath))

namespace IncludeTree

/-- All tags of a tree. -/
def tags : IncludeTree → List IncludeTag
  | .done => []
  | .tag t _ below later => t :: (below.tags ++ later.tags)

/-- The tags of a tree are those of the file and those that they lead to. -/
theorem Grows.mem_tags_iff {tags : List IncludeTag} {tree : IncludeTree}
    (h : Grows s chosen tags tree) :
    tag ∈ tree.tags ↔ tag ∈ tags ∨ ∃ t ∈ tags, s.Uses chosen t.target tag := by
  induction h with
  | done => simp [IncludeTree.tags]
  | @tag t tags o below later ho _ _ ihbelow ihlater =>
    simp only [IncludeTree.tags, List.mem_cons, List.mem_append, ihbelow, ihlater,
      exists_eq_or_imp, Surroundings.uses_iff ho]
    grind

/-! ## Where a tag opens

The text of a tree is cut into texts between tags, markers, and the texts of other trees.  None of the
first has an opening of an include tag, as all those openings are of tags that were replaced; and no
opening lies across a seam. -/

/-- No mark lies across the end of an included text. -/
theorem infix_missingBreak_iff {mark included line : Text} (hbreak : '\n' ∉ mark)
    (hslash : '/' ∉ mark) (hline : line.head? = some '/') :
    mark <:+: included ++ (IncludeTag.missingBreak included ++ line) ↔
      mark <:+: included ∨ mark <:+: line := by
  rw [IncludeTag.missingBreak]
  split
  · exact Text.infix_append_iff_of_head hline hslash
  · exact Text.infix_append_cons_iff hbreak

/-- The text of a tree opens an include tag only where a marker quotes the path of one. -/
theorem Grows.opening_infix_iff {tags : List IncludeTag} {tree : IncludeTree}
    (h : Grows s chosen tags tree) (sites : List IncludeSite) {file : SourceFile}
    {front rest : Text} (htext : file.text = front ++ rest)
    (hfound : IncludeTag.Found file.path front.size rest tags) :
    Tag.inclusion.opening <:+: (tree.runs sites file front.size).flatMap Run.text ↔
      ∃ tag ∈ tree.tags, Tag.inclusion.opening <:+: tag.includePath := by
  -- Along the tree: the last stretch of a file, or a tag with what is below it and what comes later.
  induction h generalizing sites file front rest with
  | done =>
    have hslice : file.text.slice ⟨front.size, file.text.size⟩ = rest := Text.slice_rest htext
    have hnone := hfound.not_infix
    simp [runs, IncludeTree.tags, hslice, hnone]
  | @tag t tags o below later ho hbelow hlater ihbelow ihlater =>
    obtain ⟨line, rest', htext', -, hstart, hfound'⟩ := (Surroundings.accepted_of_outline? ho).body
    cases hfound with
    | @cons _ lead body rest includePath _ hlead _ _ hrest =>
      generalize Tag.inclusion.opening ++ body ++ Tag.inclusion.closing = tagText at *
      have hslice : file.text.slice ⟨front.size, front.size + lead.size⟩ = lead :=
        Text.slice_eq (c := tagText ++ rest) (by rw [htext, List.append_assoc]) rfl rfl
      have hstop : front.size + lead.size + tagText.size = (front ++ lead ++ tagText).size := by
        rw [Text.size_append, Text.size_append]
      have hbelow := ihbelow (sites ++ [IncludeTag.site ⟨⟨front.size + lead.size,
        front.size + lead.size + tagText.size⟩, includePath,
        Path.resolve file.path ⟨includePath⟩⟩ file]) htext' hfound'
      rw [hstop] at hrest
      have hlater := ihlater sites (by rw [htext]; simp only [List.append_assoc]) hrest
      rw [← hstart] at hbelow
      rw [← hstop] at hlater
      have hnone : ¬ Tag.inclusion.opening <:+: lead := Text.not_infix_of_cut? (by decide) hlead
      have hslash : '/' ∉ Tag.inclusion.opening := by decide
      have hbreak : '\n' ∉ Tag.inclusion.opening := by decide
      rw [text_runs_tag, hslice,
        Text.infix_append_iff_of_head (IncludeTag.head?_beginMarker _ _) hslash,
        Text.infix_append_iff_of_getLast (IncludeTag.getLast?_beginMarker _) hbreak,
        infix_missingBreak_iff hbreak hslash (IncludeTag.head?_endMarker _ _),
        Text.infix_append_iff_of_getLast (IncludeTag.getLast?_endMarker _) hbreak,
        IncludeTag.infix_beginMarker_iff (by decide) (by decide),
        IncludeTag.infix_endMarker_iff (by decide) (by decide), hbelow, hlater]
      clear hlead hrest
      simp only [IncludeTree.tags, List.mem_cons, List.mem_append, or_and_right, exists_or,
        exists_eq_left]
      grind

end IncludeTree

/-! ## Errors of expansions

No error of an expansion is of this kind, whichever file it is about.  It comes up afterwards, when a
program is planned from the blocks of the expanded text. -/

/-- The error does not report an include tag that was never expanded. -/
def BuildError.Processed (e : BuildError) : Prop := ∀ l, e.rootCause ≠ .foundUnprocessedInclude l

/-- It does not come up when a file is read. -/
theorem FileSystem.processed_of_readText {fs : FileSystem} {encoding : Option TextEncoding}
    {e : BuildError} (h : fs.readText p encoding = .error e) : e.Processed := by
  rcases eq_of_readText h with ⟨cause, rfl⟩ | rfl | ⟨used, rfl⟩
  · exact nofun
  · exact nofun
  · exact nofun

/-- Nor when its tags are looked for. -/
theorem Outline.processed_of_ofText {running : Version} {text : Text} {e : BuildError}
    (h : Outline.ofText running p text = .error e) : e.Processed :=
  fun _ => BuildError.rootCause_ne_of_isOwn (raisedIn_of_ofText h).own rfl

/-- Nor does a wrapper make it one. -/
theorem BuildError.Processed.failure {file : SourceFile} {e : BuildError} (h : e.Processed)
    (tag : IncludeTag) : (tag.failure file e).Processed := h

/-- So it does not come up in a run. -/
theorem Expander.processedRule (s : Surroundings) :
    Rule s (fun _ _ _ _ r _ => ∀ e, r = .error e → e.Processed)
      (fun _ _ _ _ _ r _ => ∀ e, r = .error e → e.Processed) where
  known _ := nofun
  cyclic _ _ := by
    rintro _ ⟨⟩
    exact nofun
  missing _ _ _ := by
    rintro _ ⟨⟩
    exact nofun
  unreadable _ _ _ hread := by
    rintro _ ⟨⟩
    exact (FileSystem.processed_of_readText hread).failure _
  refused _ _ _ _ ho := by
    rintro _ ⟨⟩
    exact (Outline.processed_of_ofText ho).failure _
  failed _ _ _ _ _ _ ih := by
    rintro _ ⟨⟩
    exact (ih _ rfl).failure _
  expanded _ _ _ _ _ _ _ := nofun
  nil := nofun
  stopped _ ih := by
    rintro _ ⟨⟩
    exact ih _ rfl
  stoppedLater _ _ _ ihlater := ihlater
  cons _ _ _ _ := nofun

/-- A scan does not report it either. -/
theorem Fault.processed_error (f : Fault) (l : Location) : (f.error l).Processed := by
  obtain ⟨kind, span⟩ := f
  cases kind with
  | unopened => exact nofun
  | unclosed expected => exact nofun
  | unrecognized tag => exact nofun

/-! ## Templates

A program that fails for an include tag has a block that is one, and so its text opens one. -/

namespace Generator

variable {g : Generator} {template : Path} {encoding : Option TextEncoding} {e : BuildError}

/-- A template that cannot be expanded fails for another reason. -/
theorem processed_of_expand (h : (g.expand template encoding).result = .error e) : e.Processed := by
  rw [result_expand] at h
  obtain hpath | ⟨path, -, h⟩ := bind_eq_error.1 h
  · rw [absolute] at hpath
    split at hpath
    · cases hpath
    · cases hpath
      rintro l ⟨⟩
  obtain hread | ⟨⟨text, used⟩, -, h⟩ := bind_eq_error.1 h
  · exact FileSystem.processed_of_readText hread
  obtain hexpand | ⟨d, -, h⟩ := bind_eq_error.1 h
  · rw [Expander.fst_expand] at hexpand
    obtain ho | ⟨o, -, hexpand⟩ := bind_eq_error.1 hexpand
    · exact Outline.processed_of_ofText ho
    obtain hrun | ⟨pieces, -, hexpand⟩ := bind_eq_error.1 hexpand
    · exact (Expander.processedRule g.surroundings).tags [path] o.file o.start o.tags _ e hrun
    · cases hexpand
  · cases h

/-- An expanded text opens an include tag exactly if a path in one of the tags that were replaced
does. -/
theorem opening_infix_iff {t : ExpandedTemplate} (h : (g.expand template encoding).result = .ok t) :
    Tag.inclusion.opening <:+: t.document.text ↔
      ∃ tag, g.surroundings.Uses (asked t.path encoding) t.path tag ∧
        Tag.inclusion.opening <:+: tag.includePath := by
  obtain ⟨-, o, tree, ho, htree, hd⟩ := unfolds_of_expand h
  obtain ⟨line, rest, htext, -, hstart, hfound⟩ := (Surroundings.accepted_of_outline? ho).body
  have hruns : t.document.text = (tree.runs [] o.file o.start).flatMap Run.text := by
    rw [hd, Document.text, tree.pieces_eq_flatMap_runs, Run.text_flatMap_pieces]
  rw [hruns, hstart, htree.opening_infix_iff [] htext hfound]
  simp only [htree.mem_tags_iff, Surroundings.uses_iff ho]

/-- A program fails for an include tag that was never expanded only if the expanded text has one. -/
theorem opening_infix_of_program {serial : Nat} {l : Location}
    (h : (g.program serial template encoding).result = .error e)
    (hroot : e.rootCause = .foundUnprocessedInclude l) :
    ∃ t, (g.expand template encoding).result = .ok t ∧
      Tag.inclusion.opening <:+: t.document.text := by
  rcases eq_of_program h with hexpand | ⟨t, ht, hdocument⟩
  · exact absurd hroot (processed_of_expand hexpand l)
  · refine ⟨t, ht, ?_⟩
    rcases Program.eq_of_ofDocument hdocument with ⟨f, -, rfl⟩ | ⟨b, hb, hkind, -⟩
    · rw [Document.faultError, (BuildError.nested_errorAt ..).rootCause_eq] at hroot
      exact absurd hroot (f.processed_error _ l)
    · exact (Document.hasSpan_of_mem_blocks hb).2.2 hkind

/-- **Expansion leaves no include tag, unless a path has one in it.**  The expanded text opens an
include tag exactly if the path in one of the tags that were replaced does, and a program fails for an
include tag that was never expanded only then.  The markers add no delimiter: they have none that is
not in the path, none lies across their ends, and no path has a closing one. -/
theorem expand_remainder (g : Generator) (template : Path) (encoding : Option TextEncoding) :
    (∀ t, (g.expand template encoding).result = .ok t →
      (Tag.inclusion.opening <:+: t.document.text ↔
        ∃ tag, g.surroundings.Uses (asked t.path encoding) t.path tag ∧
          Tag.inclusion.opening <:+: tag.includePath) ∧
      ∀ tag, g.surroundings.Uses (asked t.path encoding) t.path tag →
        ∀ line ∈ [IncludeTag.beginMarker tag.includePath, IncludeTag.endMarker tag.includePath],
          (outerOpening <:+: line ↔ outerOpening <:+: tag.includePath) ∧
          ¬ outerClosing <:+: line ∧ ∀ text, Text.Seam text line ∧ Text.Seam line text) ∧
    ∀ serial e l, (g.program serial template encoding).result = .error e →
      e.rootCause = .foundUnprocessedInclude l →
      ∃ t tag, (g.expand template encoding).result = .ok t ∧
        g.surroundings.Uses (asked t.path encoding) t.path tag ∧
        Tag.inclusion.opening <:+: tag.includePath := by
  refine ⟨fun t ht => ⟨opening_infix_iff ht, fun tag htag line hline => ?_⟩,
    fun serial e l he hroot => ?_⟩
  · obtain ⟨hfirst, hlast, hmarks⟩ := IncludeTag.of_mem_markers hline
    refine ⟨hmarks (by decide) (by decide), ?_, fun text => ⟨?_, ?_⟩⟩
    · rw [hmarks (by decide) (by decide)]
      exact htag.not_closing
    · exact Text.seam_of_head_eq hfirst (by decide)
    · exact Text.seam_of_getLast_eq hlast (by decide)
  · obtain ⟨t, ht, hopening⟩ := opening_infix_of_program he hroot
    obtain ⟨tag, htag, hpath⟩ := (opening_infix_iff ht).1 hopening
    exact ⟨t, tag, ht, htag, hpath⟩

/-- A file that has the opening delimiter of an include tag in its name, and is there to be included:
the template is expanded, and its program fails. -/
theorem program_of_tag_in_path :
    let a : Path × Text :=
      (.ofString "/project/main.dswift", "<%@include file=\"<%@include\"%>".toList)
    let b : Path × Text := (.ofString "/project/<%@include", "<% a %>".toList)
    let g : Generator := ⟨.ofTexts [a, b], .ofString "/", ⟨1, 0, 16, [], []⟩, false⟩
    (∃ t, (g.expand a.1 none).result = .ok t) ∧
      (g.program 0 a.1 none).result = .error (.foundUnprocessedInclude ⟨a.1, 1, ⟨0, 30⟩⟩) := by
  intro a b g
  refine ⟨@exists_expand g a.1 none (by decide +kernel), ?_⟩
  refine result_program_of_within ?_
  simp only [Program.ofDocument, Grammar.standard_eq]
  decide +kernel

end Generator
end Templating
