import Templating.Proofs.Include.Layout
import Templating.Proofs.Include.Marker
import Templating.Proofs.Include.Nesting
import Templating.Proofs.Include.Walk

/-!
# Scanning what was expanded

The tags of an expanded template are those of the files it was made from, each in its place: expansion
and scanning go together.

## What is here

* `IncludeTag.Found.split` finds the first include tag of a file among its lexemes, and
  `SourceFile.Remains` is what remains of a file from a place between two tags on.
* `IncludeTree.Grows.reads` shows that an include tree reads as the walk says, and
  `Generator.parse_expand` that the scan of an expanded template does.
-/

set_option autoImplicit false

namespace Templating

/-! ## Include tags among lexemes

The include tags of a file are found in one way and its blocks in another, and only of the first is it
known what expansion does.  So the next include tag has to be found among the lexemes: it starts where a
lexeme starts, since an orderly file has no tag in which another one could be hidden.  Behind it the two
ways meet again, and the same argument works on what is left. -/

/-- Each of the include tags is a block that the lexemes make. -/
def IncludeTag.Aligned (n : Nat) (xs : List Lexeme) (tags : List IncludeTag) : Prop :=
  ∀ tag ∈ tags, ∃ b ∈ Lexeme.blocks n xs, b.kind = .tag .inclusion ∧ b.span = tag.span

/-- Tags that start behind a lexeme are made by the lexemes behind it. -/
theorem IncludeTag.Aligned.behind {n : Nat} {front back : List Lexeme} {tag : Tag} {body : Text}
    {tags : List IncludeTag} (h : IncludeTag.Aligned n (front ++ .tagged tag body :: back) tags)
    (hlater : ∀ later ∈ tags, n + Text.size (front.flatMap Lexeme.source)
      + (Lexeme.tagged tag body).size ≤ later.span.start) :
    IncludeTag.Aligned (n + Text.size (front.flatMap Lexeme.source)
      + (Lexeme.tagged tag body).size) back tags := by
  intro later hmem
  have hle := hlater later hmem
  have hpos : 0 < (Lexeme.tagged tag body).size :=
    Text.size_pos (by simp [Lexeme.source, Tag.opening, outerOpening])
  obtain ⟨b, hb, hkind, hspan⟩ := h later hmem
  rw [← hspan] at hle
  rw [Lexeme.blocks_append, Lexeme.blocks] at hb
  rcases List.mem_append.1 hb with hb | hb
  · have hle' := Lexeme.start_of_mem_blocks hb
    omega
  · rcases List.mem_cons.1 hb with rfl | hb
    · change _ ≤ n + _ at hle
      omega
    · exact ⟨b, hb, hkind, hspan⟩

/-- The first include tag of a text is the first include tag among its lexemes. -/
theorem IncludeTag.Found.split {path : Path} {n : Nat} {xs : List Lexeme} {tag : IncludeTag}
    {tags : List IncludeTag} (h : IncludeTag.Found path n (xs.flatMap Lexeme.source) (tag :: tags))
    (haligned : IncludeTag.Aligned n xs (tag :: tags)) :
    ∃ front body back, xs = front ++ Lexeme.tagged .inclusion body :: back ∧
      ¬ Tag.inclusion.opening <:+: front.flatMap Lexeme.source ∧
      tag.span = ((Lexeme.tagged .inclusion body).block
        (n + Text.size (front.flatMap Lexeme.source))).span ∧
      Attribute.find IncludeTag.fileAttribute body = .ok tag.includePath ∧
      IncludeTag.Found path tag.span.stop (back.flatMap Lexeme.source) tags ∧
      IncludeTag.Aligned tag.span.stop back tags := by
  obtain ⟨b, hb, hkind, hspan⟩ := haligned tag (List.mem_cons_self ..)
  obtain ⟨front, x, back, rfl, rfl⟩ := Lexeme.exists_append_of_mem_blocks hb
  generalize htext : (front ++ x :: back).flatMap Lexeme.source = text at h
  -- The lead of the found tag and the front of the lexemes are of the same size, and so they are the
  -- same.
  cases h with
  | @cons _ lead body rest includePath _ hlead hbody hpath hrest =>
    rw [List.flatMap_append, List.flatMap_cons] at htext
    obtain ⟨hstart, hstop⟩ := Span.mk.inj hspan
    have hsize : Text.size (front.flatMap Lexeme.source) = lead.size := Nat.add_left_cancel hstart
    obtain ⟨hfront, hrest'⟩ := Text.append_inj_of_size htext hsize
    have hsize' : Text.size x.source
        = (Tag.inclusion.opening ++ body ++ Tag.inclusion.closing).size := by
      rw [hsize, Lexeme.size] at hstop
      exact Nat.add_left_cancel hstop
    obtain ⟨hx, hback⟩ := Text.append_inj_of_size hrest' hsize'
    obtain rfl : x = .tagged .inclusion body := by
      cases x with
      | literal text => cases hkind
      | tagged tag body' =>
        cases hkind
        rw [Lexeme.source] at hx
        rw [List.append_cancel_left (List.append_cancel_right hx)]
    refine ⟨front, body, back, rfl, ?_, hspan.symm, hpath, ?_, ?_⟩
    · rw [hfront]
      exact Text.not_infix_of_cut? (by decide) hlead
    · rw [hback]
      exact hrest
    · -- The later tags start behind this one.
      rw [← hstop]
      refine IncludeTag.Aligned.behind (fun later hlater => ?_) (fun later hlater => ?_)
      · exact haligned later (List.mem_cons_of_mem _ hlater)
      · rw [hstop]
        exact hrest.le_start later hlater

/-! ## Include trees

The runs of a tree are texts between tags and texts between two markers.  A text between tags reads as
the lexemes that it was made of.  A marker reads as bare text, as long as the path it quotes does not
look like a tag, and what is between two markers is the tree of another file, of which the same is
known. -/

variable {s : Surroundings} {chosen : Path → Option TextEncoding}

/-- What remains of a file behind `front`: the lexemes `xs`, with the include tags `tags`. -/
structure SourceFile.Remains (s : Surroundings) (chosen : Path → Option TextEncoding)
    (file : SourceFile) (front : Text) (xs : List Lexeme) (tags : List IncludeTag) : Prop where
  text : file.text = front ++ xs.flatMap Lexeme.source
  neat : Lexeme.Neat xs
  found : IncludeTag.Found file.path front.size (xs.flatMap Lexeme.source) tags
  aligned : IncludeTag.Aligned front.size xs tags
  known : ∃ all, s.tags? chosen file.path = some all ∧ ∀ tag ∈ tags, tag ∈ all
  paths : ∀ tag ∈ tags, ¬ outerOpening <:+: tag.includePath

/-- An accepted file that can be scanned, behind its directive. -/
theorem Surroundings.Accepted.remains {p : Path} {o : Outline} (h : s.Accepted chosen p o)
    (horderly : s.Orderly chosen p) :
    ∃ front xs blocks, o.file.Remains s chosen front xs o.tags ∧ o.start = front.size ∧
      s.blocks? chosen p = some blocks ∧
      (Lexeme.blocks front.size xs).filter Block.isTag = blocks.filter Block.isTag := by
  obtain ⟨blocks, hblocks, horderly⟩ := horderly
  obtain ⟨line, rest, htext, hline, hstart, hfound⟩ := h.body
  have hread := h.read
  have htags := Surroundings.tags?_eq_some_iff.2 ⟨_, hread, h.tags⟩
  rw [h.path] at hread htags
  obtain ⟨xs, hneat, hsource, rfl⟩ := Surroundings.neat_of_blocks? hread hblocks
  obtain ⟨ys, hneat', hsource', hfilter⟩ := hneat.drop_bare (n := 0) (hsource.trans htext) hline
  rw [Nat.zero_add] at hfilter
  refine ⟨line, ys, _, ⟨?_, hneat', ?_, ?_, ?_, ?_⟩, hstart, hblocks, hfilter⟩
  · rw [hsource', htext]
  · rw [hsource']
    exact hfound
  · intro tag htag
    obtain ⟨b, hb, hkind, hspan⟩ := (horderly _ htags tag htag).1
    refine ⟨b, ?_, hkind, hspan⟩
    have hmem : b ∈ (Lexeme.blocks 0 xs).filter Block.isTag :=
      List.mem_filter.2 ⟨hb, by simp [Block.isTag, hkind]⟩
    rw [← hfilter] at hmem
    exact (List.mem_filter.1 hmem).1
  · rw [h.path]
    exact ⟨_, htags, fun _ htag => htag⟩
  · exact fun tag htag => (horderly _ htags tag htag).2

/-- A file up to its next include tag, and what remains behind it.  The path in the tag does not look
like a tag, so it can be quoted in a marker. -/
theorem SourceFile.Remains.split {file : SourceFile} {front : Text} {xs : List Lexeme}
    {tag : IncludeTag} {tags : List IncludeTag}
    (h : file.Remains s chosen front xs (tag :: tags)) :
    ∃ lead body back front', xs = lead ++ Lexeme.tagged .inclusion body :: back ∧
      ¬ Tag.inclusion.opening <:+: lead.flatMap Lexeme.source ∧
      tag.span = ((Lexeme.tagged .inclusion body).block
        (front.size + Text.size (lead.flatMap Lexeme.source))).span ∧
      tag.includePath.Plain ∧ tag.span.stop = front'.size ∧
      file.Remains s chosen front' back tags := by
  obtain ⟨lead, body, back, rfl, hlead, hspan, hpath, hfound, haligned⟩ := h.found.split h.aligned
  have hvalid : Lexeme.Valid (.tagged .inclusion body) :=
    h.neat.valid _ (List.mem_append_right _ (List.mem_cons_self ..))
  -- The value of an attribute is a part of the body, which has no closing in it.
  have hplain : tag.includePath.Plain :=
    ⟨h.paths tag (List.mem_cons_self ..),
      fun hclosing => hvalid.closing (hclosing.trans (Attribute.infix_of_find hpath))⟩
  have hstop : tag.span.stop = Text.size (front ++ lead.flatMap Lexeme.source
      ++ (Lexeme.tagged .inclusion body).source) := by
    rw [hspan, Text.size_append, Text.size_append]
    rfl
  refine ⟨lead, body, back, _, rfl, hlead, hspan, hplain, hstop, ?_, ?_, ?_, ?_, ?_, ?_⟩
  · rw [h.text, List.flatMap_append, List.flatMap_cons]
    simp only [List.append_assoc]
  · have hneat : Lexeme.Neat ((lead ++ [.tagged .inclusion body]) ++ back) := by
      rw [List.append_assoc, List.singleton_append]
      exact h.neat
    exact hneat.of_append_right
  · rw [← hstop]
    exact hfound
  · rw [← hstop]
    exact haligned
  · obtain ⟨all, hall, hsub⟩ := h.known
    exact ⟨all, hall, fun tag' htag' => hsub tag' (List.mem_cons_of_mem _ htag')⟩
  · exact fun tag' htag' => h.paths tag' (List.mem_cons_of_mem _ htag')

open Relation in
/-- **An include tree reads as a walk through the files that it is made of.** -/
theorem IncludeTree.Grows.reads {tags : List IncludeTag} {tree : IncludeTree}
    {file : SourceFile} {front : Text} {xs : List Lexeme}
    (htree : IncludeTree.Grows s chosen tags tree) (sites : List IncludeSite)
    (hfile : file.Remains s chosen front xs tags)
    (hbelow : ∀ tag ∈ tags, ∀ q, ReflTransGen (s.Mentions chosen) tag.target q →
      s.Orderly chosen q) :
    ∃ found, Reads ((tree.runs sites file front.size).flatMap Run.text) found ∧
      s.Walk chosen file.path ((Lexeme.blocks front.size xs).filter Block.isTag) found := by
  -- The induction is on the tree: the rest of a file, then a tag with the file behind it and what comes
  -- after.
  induction htree generalizing sites file front xs with
  | done =>
    have hslice : file.text.slice ⟨front.size, file.text.size⟩ = xs.flatMap Lexeme.source :=
      Text.slice_rest hfile.text
    have hwalk : s.Walk chosen file.path ((Lexeme.blocks front.size xs).filter Block.isTag ++ [])
        (xs.filterMap Lexeme.tag? ++ []) :=
      Surroundings.Walk.append_lexemes hfile.found.not_infix .nil
    rw [List.append_nil, List.append_nil] at hwalk
    refine ⟨_, ?_, hwalk⟩
    rw [runs, List.flatMap_cons, List.flatMap_nil, List.append_nil, hslice]
    exact hfile.neat.reads
  | @tag tag tags o below later ho htree hlater ihbelow ihlater =>
    have haccepted := Surroundings.accepted_of_outline? ho
    have horderly := hbelow tag (List.mem_cons_self ..)
    obtain ⟨all, hall, hsub⟩ := hfile.known
    obtain ⟨front', xs', blocks, hincluded, hstart, hblocks, hfilter⟩ :=
      haccepted.remains (horderly _ .refl)
    obtain ⟨lead, body, back, front'', rfl, hlead, hspan, hplain, hstop, hrest⟩ := hfile.split
    obtain ⟨inner, hinner, hinnerWalk⟩ := ihbelow (sites ++ [tag.site file]) hincluded (by
      intro tag' htag' q hq
      refine horderly q (.head ?_ hq)
      exact Surroundings.Includes.mentions ⟨o, ho, tag', htag', rfl⟩)
    obtain ⟨outer, houter, houterWalk⟩ := ihlater sites hrest
      fun tag' htag' => hbelow tag' (List.mem_cons_of_mem _ htag')
    rw [hfilter, haccepted.path] at hinnerWalk
    rw [← hstart] at hinner
    rw [← hstop] at houter houterWalk
    have hneat : Lexeme.Neat lead := hfile.neat.of_append_left
    have hslice : file.text.slice ⟨front.size, tag.span.start⟩ = lead.flatMap Lexeme.source := by
      have htext := hfile.text
      rw [List.flatMap_append, ← List.append_assoc] at htext
      exact Text.slice_eq htext rfl (by rw [hspan]; rfl)
    refine ⟨lead.filterMap Lexeme.tag? ++ (inner ++ outer), ?_, ?_⟩
    · rw [text_runs_tag, hslice]
      exact Reads.between_markers hplain hneat.reads hinner houter
    · exact Surroundings.Walk.append_inclusion hlead hall (hsub _ (List.mem_cons_self ..)) hspan
        hblocks hinnerWalk.of_filter houterWalk

/-! ## Templates

The template is a file like the others, except that nothing stands in front of its directive and that
its path is not named by a tag. -/

namespace Generator

variable {g : Generator} {template : Path} {encoding : Option TextEncoding} {t : ExpandedTemplate}

/-- **Expansion and scanning go together.**  If every file that a template leads to is orderly, the
expanded template can be scanned, and the tags of the scan are those that a walk through the files
comes to, starting with the blocks of the template itself. -/
theorem parse_expand (h : (g.expand template encoding).result = .ok t)
    (hfiles : ∀ p, Relation.ReflTransGen (g.surroundings.Mentions (asked t.path encoding)) t.path p →
      g.surroundings.Orderly (asked t.path encoding) p) :
    ∃ own blocks, g.surroundings.blocks? (asked t.path encoding) t.path = some own ∧
      t.document.parse .standard = .ok blocks ∧
      ∀ found, g.surroundings.Walk (asked t.path encoding) t.path own found ↔
        found = Block.tags blocks := by
  obtain ⟨-, o, tree, ho, htree, hd⟩ := unfolds_of_expand h
  have haccepted := Surroundings.accepted_of_outline? ho
  have htext : t.document.text = (tree.runs [] o.file o.start).flatMap Run.text := by
    rw [hd, Document.text, tree.pieces_eq_flatMap_runs, Run.text_flatMap_pieces]
  obtain ⟨front, xs, own, hremains, hstart, hown, hfilter⟩ := haccepted.remains (hfiles _ .refl)
  obtain ⟨found, hreads, hwalk⟩ := htree.reads [] hremains (by
    intro tag htag q hq
    refine hfiles q (.head ?_ hq)
    exact Surroundings.Includes.mentions ⟨o, ho, tag, htag, rfl⟩)
  rw [hfilter, haccepted.path] at hwalk
  rw [← hstart, ← htext] at hreads
  obtain ⟨hfault, htags⟩ := hreads.scan
  have hfound : found = Block.tags (t.document.scan .standard).blocks := by
    rw [Scan.blocks, Lexeme.tags_blocks]
    exact htags.symm
  refine ⟨own, _, hown, Document.parse_eq_ok_iff.2 ⟨hfault, rfl⟩, fun found' => ?_⟩
  rw [← hfound]
  exact hwalk.of_filter.iff_eq

/-- A tag that an included file brings in between two of the template's own. -/
theorem parse_expand_between_tags :
    let a : Path × Text := (.ofString "/a",
      "# dswift-tools-version:1.0.10\n<% let n = 1 %>\n<%@include file=\"b\"%><%= n %>".toList)
    let b : Path × Text := (.ofString "/b", "// dswift-tools-version:1.0.10\n<%! var m = 2 %>".toList)
    let g : Generator := ⟨.ofTexts [a, b], .ofString "/", ⟨1, 0, 10, [], []⟩, false⟩
    ∃ t blocks, (g.expand a.1 none).result = .ok t ∧ t.document.parse .standard = .ok blocks ∧
      Block.tags blocks = [(.code, " let n = 1 ".toList), (.declaration, " var m = 2 ".toList),
        (.print, " n ".toList)] := by
  intro a b g
  obtain ⟨t, ht⟩ := @exists_expand g a.1 none (by decide +kernel)
  have hpath : t.path = a.1 :=
    Except.ok.inj ((unfolds_of_expand ht).1.symm.trans (show g.absolute a.1 = .ok a.1 by rfl))
  have horderly : ∀ p ∈ [a.1, b.1], g.surroundings.Orderly (asked a.1 none) p := by
    simp only [Surroundings.Orderly, Surroundings.blocks?, Grammar.standard_eq]
    decide +kernel
  have hclosed : ∀ p ∈ [a.1, b.1], ∀ tags ∈ g.surroundings.tags? (asked a.1 none) p,
      ∀ tag ∈ tags, tag.target ∈ [a.1, b.1] := by decide +kernel
  obtain ⟨own, blocks, hown, hparse, hwalk⟩ := parse_expand ht (by
    rw [hpath]
    intro p hreach
    refine horderly p ?_
    induction hreach with
    | refl => exact List.mem_cons_self ..
    | @tail p q _ hedge ih =>
      obtain ⟨text, tags, htext, htags, tag, htag, rfl⟩ := hedge
      exact hclosed p ih tags (Surroundings.tags?_eq_some_iff.2 ⟨text, htext, htags⟩) tag htag)
  rw [hpath] at hown hwalk
  refine ⟨t, blocks, ht, hparse, ((hwalk _).1 (Surroundings.Walk.of_filter ?_)).symm⟩
  have htags : g.surroundings.tags? (asked a.1 none) a.1 = some [⟨⟨46, 67⟩, ['b'], b.1⟩] := by
    decide +kernel
  have hfilter : (g.surroundings.blocks? (asked a.1 none) a.1).map (List.filter Block.isTag)
      = some [⟨.tag .code, ⟨30, 45⟩, " let n = 1 ".toList⟩,
          ⟨.tag .inclusion, ⟨46, 67⟩, " file=\"b\"".toList⟩,
          ⟨.tag .print, ⟨67, 75⟩, " n ".toList⟩] := by
    simp only [Surroundings.blocks?, Grammar.standard_eq]
    decide +kernel
  have hincluded : g.surroundings.blocks? (asked a.1 none) b.1
      = some [⟨.text, ⟨0, 31⟩, "// dswift-tools-version:1.0.10\n".toList⟩,
          ⟨.tag .declaration, ⟨31, 47⟩, " var m = 2 ".toList⟩] := by
    simp only [Surroundings.blocks?, Grammar.standard_eq]
    decide +kernel
  rw [hown, Option.map_some, Option.some_inj] at hfilter
  rw [hfilter]
  refine .tag rfl (by decide) (.inclusion rfl htags (List.mem_singleton_self _) rfl hincluded
    (?_ : Surroundings.Walk _ _ _ _ [_]) (.tag rfl (by decide) .nil))
  exact .text rfl (.tag rfl (by decide) .nil)

end Generator
end Templating
