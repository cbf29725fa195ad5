import Templating.Proofs.Include.Memory

/-!
# Remembering makes no difference

Expansion can be described without a memory: a file is expanded by expanding what its tags name, from
scratch each time, with the files in progress as the only thing to know.  An expander gives exactly
what this description gives, whatever it was used for before.

## What is here

* `Reference.expand` is expansion without a memory.
* `Expander.session` uses one expander for one file after the other.
* `Expander.session_eq_reference` compares the two.  What is remembered was made while other files
  were in progress; that this does not matter is `Reference.mapM_included_of_grows`.
-/

set_option autoImplicit false

namespace Templating

/-! ## Expansion without a memory

This description is complete in itself: it goes through the checks of a file in their order, expands its
tags from the first to the last, and puts the text together.  It ends since no file can be in progress
twice and there are finitely many.  Afterwards it is brought into the form in which expansion is taken
apart elsewhere, with the outline of a file first and then its tags. -/

namespace Reference

/-- The text of a file from offset `cursor` on, when every tag is replaced by a document between
markers.  A document that has text but no line break at its end is given one. -/
def splice (file : SourceFile) : Nat → List (IncludeTag × Document) → List Piece
  | cursor, [] => Piece.copied file ⟨cursor, file.text.size⟩
  | cursor, (tag, d) :: rest =>
    Piece.copied file ⟨cursor, tag.span.start⟩
      ++ Piece.generatedAt file tag.span (IncludeTag.beginMarker tag.includePath)
      ++ d.pieces.map (Piece.within ⟨tag.includePath, file.locate tag.span⟩)
      ++ Piece.generatedAt file tag.span
        (if d.text ≠ [] ∧ d.text.getLast? ≠ some '\n' then ['\n'] else [])
      ++ Piece.generatedAt file tag.span (IncludeTag.endMarker tag.includePath)
      ++ splice file tag.span.stop rest

/-- Expands the file at `path` with the given text, where `stack` are the files in progress, this one
last. -/
def expand (s : Surroundings) (stack : List Path) (path : Path) (text : Text) :
    Except BuildError Document := do
  let source := Document.ofSource path text
  let directive ← Directive.find? source
  Directive.checkTools source s.running directive
  let tags ← IncludeTag.findAll source
  if tags ≠ [] then Directive.checkFeature source Version.includeMinimum "includes" directive
  let documents ← tags.mapM fun tag =>
    let location := source.root.locate tag.span
    if _hs : stack.any fun q => Path.Same q tag.target then
      .error (.cyclicInclude tag.includePath (stack ++ [tag.target]) location)
    else if _hf : (s.files.find? tag.target).isSome then
      ((s.files.readText tag.target none).bind fun r =>
        expand s (stack ++ [tag.target]) tag.target r.1).mapError
          (.failedToIncludeFile tag.includePath location)
    else .error (.includedFileNotFound tag.includePath tag.target location)
  return ⟨source.root, splice source.root (Directive.bodyStart directive) (tags.zip documents)⟩
termination_by s.files.unvisited stack
decreasing_by exact FileSystem.unvisited_append_lt _hf _hs

/-- Expands the file that a tag names. -/
def included (s : Surroundings) (stack : List Path) (file : SourceFile) (tag : IncludeTag) :
    Except BuildError Document :=
  if stack.any fun q => Path.Same q tag.target then
    .error (.cyclicInclude tag.includePath (stack ++ [tag.target]) (file.locate tag.span))
  else if (s.files.find? tag.target).isSome then
    ((s.files.readText tag.target none).bind fun r =>
      expand s (stack ++ [tag.target]) tag.target r.1).mapError (tag.failure file)
  else .error (.includedFileNotFound tag.includePath tag.target (file.locate tag.span))

/-- The checks of a file are those of its outline. -/
theorem expand_eq (s : Surroundings) (stack : List Path) (path : Path) (text : Text) :
    expand s stack path text = (do
      let o ← Outline.ofText s.running path text
      let documents ← o.tags.mapM (included s stack o.file)
      return ⟨o.file, splice o.file o.start (o.tags.zip documents)⟩) := by
  rw [expand, Outline.ofText]
  cases Directive.find? (Document.ofSource path text) with
  | error e => rfl
  | ok directive =>
    cases hcheck : Directive.checkTools (Document.ofSource path text) s.running directive with
    | error e => simp only [bind, Except.bind, hcheck]
    | ok u =>
      cases htags : IncludeTag.findAll (Document.ofSource path text) with
      | error e => simp only [bind, Except.bind, hcheck]
      | ok tags =>
        simp only [bind, Except.bind, hcheck]
        split
        · cases Directive.checkFeature (Document.ofSource path text) Version.includeMinimum
            "includes" directive with
          | error e => rfl
          | ok u => rfl
        · rfl

/-- A tag is replaced as it is elsewhere. -/
theorem splice_cons (file : SourceFile) (cursor : Nat) (tag : IncludeTag) (d : Document)
    (rest : List (IncludeTag × Document)) :
    splice file cursor ((tag, d) :: rest) = Piece.copied file ⟨cursor, tag.span.start⟩
      ++ tag.replacement file d ++ splice file tag.span.stop rest := by
  have hbreak : (if d.text ≠ [] ∧ d.text.getLast? ≠ some '\n' then ['\n'] else [])
      = IncludeTag.missingBreak d.text := by
    rw [IncludeTag.missingBreak]
    by_cases hempty : d.text = []
    · rw [if_neg (by simp [hempty]), if_pos (Or.inl hempty)]
    · by_cases hlast : d.text.getLast? = some '\n'
      · rw [if_neg (by simp [hlast]), if_pos (Or.inr hlast)]
      · rw [if_pos ⟨hempty, hlast⟩, if_neg (by simp [hempty, hlast])]
  rw [splice, hbreak, IncludeTag.replacement, IncludeTag.site]
  simp only [List.append_assoc]

/-! ## Expanding a file on its own

What is remembered of a file is an expansion that the include graph describes.  Without a memory the
file is expanded again, with other files in progress.  They would matter only if the file led back to
one of them.  A file that has an expansion is on no cycle, so it does not lead back to what leads to it. -/

/-- Nothing is asked for: every encoding is guessed. -/
def unasked : Path → Option TextEncoding := fun _ => none

theorem covers_unasked (stack : List Path) : Expander.Covers unasked stack := fun _ _ _ => rfl

variable {s : Surroundings} {stack : List Path} {file : SourceFile} {tag : IncludeTag}
  {tags : List IncludeTag} {tree : IncludeTree} {o : Outline} {d : Document}

/-- A file that is not in progress and can be read is expanded. -/
theorem included_of_read {text : Text} {encoding : TextEncoding}
    (hs : ∀ q ∈ stack, ¬ Path.Same q tag.target)
    (hread : s.files.readText tag.target none = .ok (text, encoding)) :
    included s stack file tag =
      (expand s (stack ++ [tag.target]) tag.target text).mapError (tag.failure file) := by
  have hany : ¬ (stack.any fun q => Path.Same q tag.target) = true := by simpa using hs
  rw [included, if_neg hany, if_pos (FileSystem.isSome_find?_of_readText hread), hread]
  rfl

/-- If its outline is accepted, that is to expand its tags. -/
theorem included_of_ofText {text : Text} {encoding : TextEncoding}
    (hs : ∀ q ∈ stack, ¬ Path.Same q tag.target)
    (hread : s.files.readText tag.target none = .ok (text, encoding))
    (ho : Outline.ofText s.running tag.target text = .ok o) :
    included s stack file tag = ((o.tags.mapM (included s (stack ++ [tag.target]) o.file)).map
      fun documents => ⟨o.file, splice o.file o.start (o.tags.zip documents)⟩).mapError
        (tag.failure file) := by
  rw [included_of_read hs hread, expand_eq, ho]
  rfl

/-- The documents that the tags at the top of a tree stand for. -/
def documents : IncludeTree → List Document
  | .done => []
  | .tag _ o below later => ⟨o.file, below.pieces o.file o.start⟩ :: documents later

/-- Put together, the documents at the top of a tree are what the tree stands for. -/
theorem splice_documents (htree : IncludeTree.Grows s unasked tags tree) (cursor : Nat) :
    splice file cursor (tags.zip (documents tree)) = tree.pieces file cursor := by
  induction htree generalizing cursor with
  | done => rfl
  | tag _ _ _ _ ihlater =>
    rw [documents, List.zip_cons_cons, splice_cons, ihlater, IncludeTree.pieces]

/-- None of the files in progress can be come back to from `p`. -/
def Clear (s : Surroundings) (stack : List Path) (p : Path) : Prop :=
  ∀ q ∈ stack, q.Folded ∧ ¬ Relation.ReflTransGen (s.Includes unasked) p q

/-- The file itself is none of those in progress. -/
theorem Clear.not_same {p : Path} (h : Clear s stack p) (hp : p.Folded) :
    ∀ q ∈ stack, ¬ Path.Same q p := by
  intro q hq hsame
  obtain ⟨hqfolded, hback⟩ := h q hq
  rw [hqfolded.eq_of_same hp hsame] at hback
  exact hback .refl

/-- Going on to an included file, with the file now in progress as well. -/
theorem Clear.append {p q : Path} (h : Clear s stack p) (hp : p.Folded)
    (hloop : ¬ Relation.TransGen (s.Includes unasked) p p) (hpq : s.Includes unasked p q) :
    Clear s (stack ++ [p]) q := by
  intro r hr
  rcases List.mem_append.1 hr with hr | hr
  · obtain ⟨hrfolded, hback⟩ := h r hr
    exact ⟨hrfolded, fun hreach => hback (hreach.head hpq)⟩
  · obtain rfl := List.mem_singleton.1 hr
    exact ⟨hp, fun hreach => hloop (Relation.TransGen.head' hpq hreach)⟩

/-- Files in progress that cannot be come back to do not disturb an expansion. -/
theorem mapM_included_of_grows (htree : IncludeTree.Grows s unasked tags tree)
    (hclear : ∀ tag ∈ tags, tag.target.Folded ∧ Clear s stack tag.target) :
    tags.mapM (included s stack file) = .ok (documents tree) := by
  induction htree generalizing stack file with
  | done => rfl
  | @tag tag tags o below later ho hbelow hlater ihbelow ihlater =>
    obtain ⟨htarget, hstack⟩ := hclear tag (List.mem_cons_self ..)
    have hunfolds : s.Unfolds unasked tag.target ⟨o.file, below.pieces o.file o.start⟩ :=
      ⟨o, below, ho, hbelow, rfl⟩
    obtain ⟨text, htext, hof⟩ := Surroundings.outline?_eq_some_iff.1 ho
    obtain ⟨encoding, hread⟩ := Surroundings.text?_eq_some_iff.1 htext
    have hinner : o.tags.mapM (included s (stack ++ [tag.target]) o.file) = .ok (documents below) :=
      ihbelow fun t ht => ⟨Expander.folded_of_ofText hof t ht,
        hstack.append htarget hunfolds.not_transGen_includes ⟨o, ho, t, ht, rfl⟩⟩
    have hfirst : included s stack file tag = .ok ⟨o.file, below.pieces o.file o.start⟩ := by
      rw [included_of_ofText (hstack.not_same htarget) hread hof, hinner]
      show Except.ok (⟨o.file, splice o.file o.start (o.tags.zip (documents below))⟩ : Document) = _
      rw [splice_documents hbelow]
    have hrest : tags.mapM (included s stack file) = .ok (documents later) :=
      ihlater fun t ht => hclear t (List.mem_cons_of_mem _ ht)
    rw [List.mapM_cons, hfirst, hrest]
    rfl

/-- The same of one tag. -/
theorem included_of_unfolds (hd : s.Unfolds unasked tag.target d) (htarget : tag.target.Folded)
    (hclear : Clear s stack tag.target) : included s stack file tag = .ok d := by
  obtain ⟨o, below, ho, hbelow, rfl⟩ := hd
  have htags : [tag].mapM (included s stack file) = .ok (documents (.tag tag o below .done)) := by
    refine mapM_included_of_grows (.tag ho hbelow .done) fun t ht => ?_
    obtain rfl := List.mem_singleton.1 ht
    exact ⟨htarget, hclear⟩
  rw [List.mapM_cons] at htags
  obtain ⟨d, hd, hrest⟩ := bind_eq_ok.1 htags
  cases hrest
  exact hd

end Reference

/-! ## One expander for many files

Each call starts with a file of its own in progress and with all that was remembered before.  Whatever
was remembered is sound, also after a call that failed; and sound is all that is needed to get what
there would be without a memory. -/

namespace Expander

open Reference

variable {s : Surroundings}

/-- Each of the files in progress leads to `p`. -/
def Leads (s : Surroundings) (stack : List Path) (p : Path) : Prop :=
  ∀ q ∈ stack, q.Folded ∧ Relation.TransGen (s.Includes unasked) q p

/-- Going on to an included file. -/
theorem Leads.append {stack : List Path} {p q : Path} (h : Leads s stack p) (hp : p.Folded)
    (hpq : s.Includes unasked p q) : Leads s (stack ++ [p]) q := by
  intro r hr
  rcases List.mem_append.1 hr with hr | hr
  · exact ⟨(h r hr).1, (h r hr).2.tail hpq⟩
  · obtain rfl := List.mem_singleton.1 hr
    exact ⟨hp, .single hpq⟩

/-- What leads to a file that is on no cycle cannot be come back to from there. -/
theorem Leads.clear {stack : List Path} {p : Path} (h : Leads s stack p)
    (hloop : ¬ Relation.TransGen (s.Includes unasked) p p) : Clear s stack p := by
  intro q hq
  obtain ⟨hqfolded, hreach⟩ := h q hq
  exact ⟨hqfolded, fun hback => hloop (hreach.trans_right hback)⟩

/-- The tags of an accepted file name files that the files in progress lead to as well. -/
theorem leads_of_ofText {stack : List Path} {p : Path} {text : Text} {encoding : TextEncoding}
    {o : Outline} (hread : s.files.readText p none = .ok (text, encoding))
    (ho : Outline.ofText s.running p text = .ok o) (hp : p.Folded) (h : Leads s stack p) :
    ∀ tag ∈ o.tags, tag.target.Folded ∧ Leads s (stack ++ [p]) tag.target := by
  intro tag htag
  have houtline : s.outline? unasked p = some o :=
    Surroundings.outline?_eq_some_iff.2 ⟨text, Surroundings.text?_eq_some_iff.2 ⟨encoding, hread⟩, ho⟩
  exact ⟨folded_of_ofText ho tag htag, h.append hp ⟨o, houtline, tag, htag, rfl⟩⟩

/-- The tags of a file are followed as they are without a memory, if what is remembered is sound and
the files in progress lead to what the tags name. -/
theorem referenceRule (s : Surroundings) :
    Rule s
      (fun stack file tag x r _ => tag.target.Folded → Leads s stack tag.target →
        Sound s unasked x → included s stack file tag = r)
      (fun stack file cursor tags x r _ =>
        (∀ tag ∈ tags, tag.target.Folded ∧ Leads s stack tag.target) → Sound s unasked x →
        (tags.mapM (included s stack file)).map
          (fun documents => splice file cursor (tags.zip documents)) = r) where
  known hx := by
    intro htarget hleads hsound
    have hd := hsound _ _ htarget hx
    exact included_of_unfolds hd htarget (hleads.clear hd.not_transGen_includes)
  cyclic _ hs := by
    intro _ _ _
    rw [included, if_pos (by simpa using hs)]
  missing _ hs hf := by
    intro _ _ _
    rw [included, if_neg (by simpa using hs), if_neg (by simp [hf])]
  unreadable _ hs hf hread := by
    intro _ _ _
    rw [included, if_neg (by simpa using hs), if_pos hf, hread]
    rfl
  refused _ hs _ hread ho := by
    intro _ _ _
    rw [included_of_read hs hread, expand_eq, ho]
    rfl
  failed _ hs _ hread ho _ ih := by
    intro htarget hleads hsound
    have htags := leads_of_ofText hread ho htarget hleads
    rw [included_of_ofText hs hread ho, map_eq_error.1 (ih htags hsound)]
    rfl
  expanded _ hs _ hread ho _ ih := by
    intro htarget hleads hsound
    have htags := leads_of_ofText hread ho htarget hleads
    obtain ⟨documents, hdocuments, rfl⟩ := map_eq_ok.1 (ih htags hsound)
    rw [included_of_ofText hs hread ho, hdocuments]
    rfl
  nil := fun _ _ => rfl
  stopped _ ih := by
    intro htags hsound
    obtain ⟨htarget, hleads⟩ := htags _ (List.mem_cons_self ..)
    rw [List.mapM_cons, ih htarget hleads hsound]
    rfl
  stoppedLater hrun ih _ ihlater := by
    intro htags hsound
    obtain ⟨htarget, hleads⟩ := htags _ (List.mem_cons_self ..)
    have hsound' := hsound.of_expandTag hrun (covers_unasked _) htarget
    have hlater := ihlater (fun t ht => htags t (List.mem_cons_of_mem _ ht)) hsound'
    rw [List.mapM_cons, ih htarget hleads hsound, map_eq_error.1 hlater]
    rfl
  cons hrun ih _ ihlater := by
    intro htags hsound
    obtain ⟨htarget, hleads⟩ := htags _ (List.mem_cons_self ..)
    have hsound' := hsound.of_expandTag hrun (covers_unasked _) htarget
    have hlater := ihlater (fun t ht => htags t (List.mem_cons_of_mem _ ht)) hsound'
    obtain ⟨documents, hdocuments, rfl⟩ := map_eq_ok.1 hlater
    rw [List.mapM_cons, ih htarget hleads hsound, hdocuments, ← splice_cons]
    rfl

/-- Expanding a file gives what it gives without a memory, and leaves what is remembered sound. -/
theorem expand_eq_reference {path : Path} {text : Text} {encoding : TextEncoding} {x : Expander}
    (hpath : path.Folded) (hread : s.files.readText path none = .ok (text, encoding))
    (hsound : Sound s unasked x) :
    (expand s path text x).1 = Reference.expand s [path] path text ∧
      Sound s unasked (expand s path text x).2 := by
  rw [Reference.expand_eq, expand]
  -- If the file is refused, nothing is expanded and nothing is remembered.
  cases ho : Outline.ofText s.running path text with
  | error e => exact ⟨rfl, hsound⟩
  | ok o =>
    have hnone : Leads s [] path := fun q hq => absurd hq List.not_mem_nil
    have htags := leads_of_ofText hread ho hpath hnone
    have hrun := (referenceRule s).tags [path] o.file o.start o.tags x htags hsound
    have hsound' :=
      (sound_expandTags [path] o.file o.start (covers_unasked _) (folded_of_ofText ho) hsound).1
    dsimp only
    generalize expandTags s [path] o.file o.start o.tags x = r at hrun hsound' ⊢
    obtain ⟨_ | pieces, x'⟩ := r
    · refine ⟨?_, hsound'⟩
      show _ = (o.tags.mapM (included s [path] o.file)).bind _
      rw [map_eq_error.1 hrun]
      rfl
    · obtain ⟨documents, hdocuments, rfl⟩ := map_eq_ok.1 hrun
      refine ⟨?_, hsound'⟩
      show _ = (o.tags.mapM (included s [path] o.file)).bind _
      rw [hdocuments]
      rfl

/-- Expands one file after the other with one expander. -/
def session (s : Surroundings) :
    List (Path × Text) → Expander → List (Except BuildError Document) × Expander
  | [], x => ([], x)
  | (path, text) :: calls, x =>
    let (result, x) := expand s path text x
    let (results, x) := session s calls x
    (result :: results, x)

/-- The same of an expander that already remembers something. -/
theorem session_of_sound {calls : List (Path × Text)} {x : Expander}
    (hcalls : ∀ call ∈ calls, call.1.Folded ∧
      ∃ encoding, s.files.readText call.1 none = .ok (call.2, encoding))
    (hsound : Sound s unasked x) :
    (session s calls x).1 = calls.map fun call => Reference.expand s [call.1] call.1 call.2 := by
  induction calls generalizing x with
  | nil => rfl
  | cons call calls ih =>
    obtain ⟨path, text⟩ := call
    obtain ⟨hpath, encoding, hread⟩ := hcalls _ (List.mem_cons_self ..)
    obtain ⟨hfirst, hsound'⟩ := expand_eq_reference hpath hread hsound
    have hlater := ih (fun call hcall => hcalls call (List.mem_cons_of_mem _ hcall)) hsound'
    show (expand s path text x).1 :: (session s calls (expand s path text x).2).1 = _
    rw [hfirst, hlater]
    rfl

/-- **An expander gives what it would give if it forgot everything in between**, whatever files it
was used for and whether or not their expansion failed: the same documents, piece by piece, and the
same errors.  The paths are those that `Path.absolute?` gives, the texts those of the files. -/
theorem session_eq_reference (s : Surroundings) (calls : List (Path × Text))
    (hpaths : ∀ call ∈ calls, ∃ p cwd, Path.absolute? p cwd = some call.1)
    (htexts : ∀ call ∈ calls, ∃ encoding, s.files.readText call.1 none = .ok (call.2, encoding)) :
    (session s calls {}).1 =
      calls.map fun call => Reference.expand s [call.1] call.1 call.2 := by
  refine session_of_sound (fun call hcall => ⟨?_, htexts call hcall⟩) (sound_new s unasked [])
  obtain ⟨p, cwd, h⟩ := hpaths call hcall
  exact Path.folded_absolute h

/-- A file that is included twice, before and after a file that includes itself. -/
theorem session_eq_reference_around_cycle :
    let a : Path × Text := (.ofString "/a", "<%@include file=\"b\"%><%@include file=\"b\"%>".toList)
    let b : Path × Text := (.ofString "/b", "text".toList)
    let c : Path × Text := (.ofString "/c", "<%@include file=\"b\"%><%@include file=\"c\"%>".toList)
    let s : Surroundings := ⟨.ofTexts [a, b, c], ⟨1, 0, 0, [], []⟩⟩
    (session s [a, c, b, a] {}).1 =
      [Reference.expand s [a.1] a.1 a.2, Reference.expand s [c.1] c.1 c.2,
        Reference.expand s [b.1] b.1 b.2, Reference.expand s [a.1] a.1 a.2] := by
  intro a b c s
  have hpaths : ∀ call ∈ [a, c, b, a], Path.absolute? call.1 call.1 = some call.1 := by decide
  refine session_eq_reference s [a, c, b, a] (fun call h => ⟨call.1, call.1, hpaths call h⟩) ?_
  have hfind : ∀ call ∈ [a, c, b, a],
      [a, b, c].find? (fun file => Path.Same file.1 call.1) = some call := by decide
  have hascii : ∀ call ∈ [a, c, b, a], ∀ c, call.2.head? = some c → c.toNat < 128 := by
    simp [a, b, c]
  intro call hcall
  exact ⟨.utf8, FileSystem.readText_ofTexts ⟨call.1, hfind call hcall⟩ (hascii call hcall)⟩

end Expander
end Templating
