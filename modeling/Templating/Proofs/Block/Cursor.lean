import Templating.Block.Cursor
import Templating.Proofs.Block.Decomposition
import Templating.Proofs.Program.Failure

/-!
# What a cursor yields

With any grammar and on any document, a cursor yields the blocks up to the end of the document or up to
the first place where there is no block, then the error of that place, and then nothing.

## What is here

* `Lexeme.Sequence` is a row of lexemes that a text begins with; `Scan.sequence` is what a scan reads.
* `Cursor.Yields` are the steps of a cursor, and `Cursor.yields_scan` says that what it yields in all of
  them is what a scan has.
* `Cursor.yields_ofKinds` says what that is for the grammar of any kinds of block and one file.
-/

set_option autoImplicit false

namespace Templating

/-! ## Faults

A fault is said of the rest of a text and is reported of the whole.  So its span is moved, and it is
shown that what it covers is what is reported. -/

namespace Lexeme

variable {g : Grammar} {t : Text} {f : Fault}

/-- What is reported as an unknown tag is what stands there. -/
theorem Faulty.slice_shift (h : Faulty g t f) (front : Text) {tag : Text}
    (hkind : f.kind = .unrecognized tag) :
    Text.slice (front ++ t) (f.span.shift front.size) = tag := by
  -- Whatever is reported stands at the front of the rest.
  have hslice {name : Text} (hname : name <+: t) :
      Text.slice (front ++ t) (Span.shift ⟨0, name.size⟩ front.size) = name := by
    obtain ⟨rest, rfl⟩ := hname
    exact Text.slice_eq (by rw [List.append_assoc]) (Nat.zero_add _) (Nat.add_comm _ _)
  cases h with
  | unopened => cases hkind
  | unclosed => cases hkind
  | unrecognized _ _ hwindow =>
    cases hkind
    exact hslice hwindow.isPrefix
  | @directive body rest name _ ht _ _ hname =>
    cases hkind
    refine hslice ?_
    rw [hname, ht, List.prefix_append_right_inj, List.append_assoc]
    exact (List.takeWhile_prefix _).trans (List.prefix_append _ _)

/-- A closing delimiter is the fault exactly if none is opened before it. -/
theorem Faulty.unopened_iff (h : Faulty g t f) : f.kind = .unopened ↔
    ∃ front rest, t = front ++ outerClosing ++ rest ∧
      ¬ outerOpening <:+: front ++ outerClosing := by
  -- At an opening no closing can come first.
  have hno (hopening : outerOpening <+: t) : ¬ ∃ front rest, t = front ++ outerClosing ++ rest ∧
      ¬ outerOpening <:+: front ++ outerClosing := by
    rintro ⟨front, rest, rfl, hbefore⟩
    have hlast : (front ++ outerClosing).getLast? ≠ some '<' := by simp [outerClosing]
    have hlead := lead_of_opening hopening
    rw [lead_append_left hbefore hlast] at hlead
    simp [outerClosing] at hlead
  cases h with
  | unopened ht _ hopening => exact ⟨fun _ => ⟨_, _, ht, hopening⟩, fun _ => rfl⟩
  | unrecognized hopening => exact iff_of_false (by simp) (hno hopening)
  | unclosed htag => exact iff_of_false (by simp) (hno htag.outerOpening_prefix)
  | directive htag => exact iff_of_false (by simp) (hno htag.outerOpening_prefix)

/-! ## Sequences of lexemes

A sequence says what the lexemes of a text are by what each of them is at its place, not by how they are
read.  A scan gives such a sequence, and ends where there is no further lexeme. -/

/-- The text begins with these lexemes, one after the other, and a rest follows them. -/
inductive Sequence (g : Grammar) : Text → List Lexeme → Text → Prop
  | nil {t : Text} : Sequence g t [] t
  | cons {t rest last : Text} {x : Lexeme} {xs : List Lexeme} (hfirst : Begins g t x rest)
      (hrest : Sequence g rest xs last) : Sequence g t (x :: xs) last

/-- The lexemes and the rest make up the text. -/
theorem Sequence.eq (hg : g.Sorted) {xs : List Lexeme} {last : Text} (h : Sequence g t xs last) :
    t = xs.flatMap source ++ last ∧ ∀ x ∈ xs, x.source ≠ [] := by
  induction h with
  | nil => exact ⟨rfl, by simp⟩
  | cons hfirst _ ih =>
    obtain ⟨ht, hne⟩ := next_eq (next_of_begins hg hfirst)
    refine ⟨?_, List.forall_mem_cons.2 ⟨hne, ih.2⟩⟩
    rw [List.flatMap_cons, List.append_assoc, ← ih.1]
    exact ht

end Lexeme

/-- A scan reads lexemes up to the end of the text, or up to the first rest that is at fault. -/
theorem Scan.sequence {g : Grammar} (hg : g.Sorted) (t : Text) :
    ∃ rest, Lexeme.Sequence g t (ofText g t).lexemes rest ∧
      ((ofText g t).fault = none ∧ rest = [] ∨
        ∃ f, (ofText g t).fault = some f ∧ rest ≠ [] ∧ Lexeme.Faulty g rest f) := by
  induction t using ofText_induct (g := g) with
  | finish => exact ⟨[], .nil, .inl ⟨rfl, rfl⟩⟩
  | fault t f hne hnext =>
    exact ⟨t, .nil, .inr ⟨f, rfl, hne, (Lexeme.next_eq_error_iff hg hne).1 hnext⟩⟩
  | step t x rest hnext ih =>
    obtain ⟨last, hsequence, hlast⟩ := ih
    exact ⟨last, .cons ((Lexeme.next_eq_ok_iff hg).1 hnext) hsequence, hlast⟩

/-! ## Steps of a cursor

A cursor keeps the offset of the next block, and whether it has failed.  At each step it reads one
lexeme from there, so what it yields from an offset on is what a scan of the rest has.  After an error
it yields nothing more, although text is left. -/

namespace Document

variable {d : Document} {g : Grammar} {front t : Text}

/-- In front of some text a cursor is not at the end. -/
theorem not_size_le (h : d.text = front ++ t) (hne : t ≠ []) : ¬ d.size ≤ front.size := by
  have hpos := Text.size_pos hne
  rw [size, h, Text.size_append]
  omega

/-- Behind a part at the front of a document, the next block is the next lexeme of the rest. -/
theorem nextBlock_of_next {rest : Text} {x : Lexeme} (h : d.text = front ++ t)
    (hnext : Lexeme.next g t = .ok (x, rest)) :
    d.nextBlock g front.size = .ok (some (x.block front.size)) := by
  have hne := Lexeme.ne_nil_of_next hnext
  rw [nextBlock, if_neg (not_size_le h hne), h, Text.dropBytes_append_of_size, hnext]

/-- If the rest is at fault, that is an error in the document. -/
theorem nextBlock_of_fault {f : Fault} (h : d.text = front ++ t) (hne : t ≠ [])
    (hnext : Lexeme.next g t = .error f) :
    d.nextBlock g front.size = .error (d.faultError (f.shift front.size)) := by
  rw [nextBlock, if_neg (not_size_le h hne), h, Text.dropBytes_append_of_size, hnext]

/-- At the end there is no next block. -/
theorem nextBlock_size (d : Document) (g : Grammar) : d.nextBlock g d.size = .ok none :=
  if_pos (Nat.le_refl _)

end Document

namespace Cursor

/-- From one cursor to another, these are the blocks and errors that are yielded. -/
inductive Yields : Cursor → List (Except BuildError Block) → Cursor → Prop
  | nil {c : Cursor} : Yields c [] c
  | cons {c c' last : Cursor} {item : Except BuildError Block}
      {items : List (Except BuildError Block)} (hnext : c.next = (some item, c'))
      (hrest : Yields c' items last) : Yields c (item :: items) last

/-- A cursor yields what a scan has from its place on, and then nothing any more. -/
theorem yields_ofText {g : Grammar} {d : Document} {front t : Text} (h : d.text = front ++ t) :
    ∃ c, Yields ⟨g, d, front.size, false⟩
        ((Lexeme.blocks front.size (Scan.ofText g t).lexemes).map .ok ++
          ((Scan.ofText g t).fault.map fun f =>
            d.faultError (f.shift (front.size + (Scan.ofText g t).stop))).toList.map .error) c ∧
      c.next = (none, c) := by
  -- The induction goes with the scan, and the cursor with the text in front of what is left.
  induction t using Scan.ofText_induct (g := g) generalizing front with
  | finish =>
    refine ⟨⟨g, d, front.size, false⟩, .nil, ?_⟩
    have hsize : d.size = front.size := by rw [Document.size, h, List.append_nil]
    rw [next, if_neg Bool.false_ne_true]
    dsimp only
    rw [← hsize, d.nextBlock_size]
  | fault t f hne hnext =>
    refine ⟨⟨g, d, front.size, true⟩, .cons ?_ .nil, rfl⟩
    rw [next, if_neg Bool.false_ne_true]
    dsimp only
    rw [Document.nextBlock_of_fault h hne hnext]
    rfl
  | step t x rest hnext ih =>
    have hrest : d.text = front ++ x.source ++ rest := by
      rw [h, (Lexeme.next_eq hnext).1, List.append_assoc]
    have hstep : next ⟨g, d, front.size, false⟩
        = (some (.ok (x.block front.size)), ⟨g, d, (front ++ x.source).size, false⟩) := by
      rw [next, if_neg Bool.false_ne_true]
      dsimp only
      rw [Document.nextBlock_of_next h hnext, Text.size_append]
      rfl
    have hstop : front.size + Scan.stop ⟨x :: (Scan.ofText g rest).lexemes, (Scan.ofText g rest).fault⟩
        = (front ++ x.source).size + (Scan.ofText g rest).stop := by
      rw [Scan.stop, List.flatMap_cons, Text.size_append, Text.size_append, Nat.add_assoc]
      rfl
    obtain ⟨c, hyields, hc⟩ := ih hrest
    refine ⟨c, .cons hstep ?_, hc⟩
    rw [hstop]
    rw [Text.size_append] at hyields ⊢
    exact hyields

/-- What a cursor yields from the beginning of a document on is what a scan has. -/
theorem yields_scan (g : Grammar) (d : Document) :
    ∃ c, Yields ⟨g, d, 0, false⟩
        ((d.scan g).blocks.map .ok ++ ((d.scan g).failure? d).toList.map .error) c ∧
      c.next = (none, c) := by
  obtain ⟨c, hyields, hc⟩ := yields_ofText (g := g) (List.nil_append d.text).symm
  rw [Text.size_nil, Nat.zero_add] at hyields
  exact ⟨c, hyields, hc⟩

end Cursor

/-! ## One file

In a document that is one file the places of a fault are places of that file, and no include tags are
around it. -/

namespace Grammar

/-- A grammar has the tags that it was asked for. -/
theorem mem_ofKinds_iff {kinds : List BlockKind} {tag : Tag} :
    tag ∈ (ofKinds kinds).tags ↔ .tag tag ∈ kinds := by
  rw [ofKinds, ofTags, List.mem_mergeSort, List.mem_eraseDups, List.mem_filterMap]
  constructor
  · rintro ⟨kind, hkind, htag⟩
    cases kind with
    | text => cases htag
    | tag other =>
      cases htag
      exact hkind
  · exact fun h => ⟨_, h, rfl⟩

end Grammar

/-- Nothing in such a document came through a tag. -/
theorem Document.sites_ofSource (path : Path) (text : Text) (offset : Nat) :
    (ofSource path text).sites offset = [] := by
  have hsegments : ∀ segment ∈ (ofSource path text).segments, segment.piece.sites = [] := by
    intro segment hsegment
    rw [segments, ofSource, Piece.copied] at hsegment
    dsimp only at hsegment
    split at hsegment
    · cases hsegment
    · obtain rfl := List.mem_singleton.1 hsegment
      rfl
  rw [sites]
  split
  · next segment h => exact hsegments segment (List.mem_of_getElem? h)
  · rfl

/-- An error in a document that is one file has no include tags around it. -/
theorem Document.faultError_ofSource {path : Path} {text : Text} {f : Fault}
    (h : text.HasSpan f.span) :
    (ofSource path text).faultError f = f.error (SourceFile.locate ⟨path, text⟩ f.span) := by
  rw [faultError, errorAt, sites_ofSource, locate_ofSource h]
  rfl

namespace Cursor

/-- **A cursor goes through every text to an end.**  Whatever kinds of block its grammar has, it yields
the blocks of a part at the front, which tile that part, and no block covers a part of a character.
The rest is empty, or it is at fault at its front: then it yields the error of the fault, and then
nothing any more. -/
theorem yields_ofKinds (kinds : List BlockKind) (path : Path) (text : Text) :
    (∀ tag, tag ∈ (Grammar.ofKinds kinds).tags ↔ .tag tag ∈ kinds) ∧
    ∃ xs front rest c, text = front ++ rest ∧ Lexeme.Sequence (.ofKinds kinds) text xs rest ∧
      Span.Tile 0 ((Lexeme.blocks 0 xs).map Block.span) front.size ∧
      (∀ b ∈ Lexeme.blocks 0 xs, text.HasSpan b.span) ∧ next c = (none, c) ∧
      (rest = [] ∧
          Yields ⟨.ofKinds kinds, .ofSource path text, 0, false⟩ ((Lexeme.blocks 0 xs).map .ok) c ∨
        ∃ f, Lexeme.Faulty (.ofKinds kinds) rest f ∧
          (f.kind = .unopened ↔ ∃ before after, rest = before ++ outerClosing ++ after ∧
            ¬ outerOpening <:+: before ++ outerClosing) ∧
          text.HasSpan (f.span.shift front.size) ∧
          (∀ tag, f.kind = .unrecognized tag → text.slice (f.span.shift front.size) = tag) ∧
          Yields ⟨.ofKinds kinds, .ofSource path text, 0, false⟩
            ((Lexeme.blocks 0 xs).map .ok ++
              [.error (f.error (SourceFile.locate ⟨path, text⟩ (f.span.shift front.size)))]) c) := by
  refine ⟨fun tag => Grammar.mem_ofKinds_iff, ?_⟩
  have hg : (Grammar.ofKinds kinds).Sorted := Grammar.sorted_ofTags _
  generalize Grammar.ofKinds kinds = g at hg ⊢
  have hscan : (Document.ofSource path text).scan g = Scan.ofText g text := by
    rw [Document.scan, Document.text_ofSource]
  obtain ⟨rest, hsequence, hend⟩ := Scan.sequence hg text
  obtain ⟨htext, hsources⟩ := hsequence.eq hg
  have htile := Lexeme.tile_blocks hsources 0
  rw [Nat.zero_add] at htile
  have hspans : ∀ b ∈ ((Document.ofSource path text).scan g).blocks, text.HasSpan b.span := by
    intro b hb
    have hspan := (Document.hasSpan_of_mem_blocks hb).1
    rwa [Document.text_ofSource] at hspan
  obtain ⟨c, hyields, hc⟩ := yields_scan g (.ofSource path text)
  rw [hscan] at hspans hyields
  refine ⟨_, _, rest, c, htext, hsequence, htile, hspans, hc, ?_⟩
  rcases hend with ⟨hfault, hrest⟩ | ⟨f, hfault, -, hfaulty⟩
  · rw [Scan.failure?, hfault, Option.map_none, Option.toList_none, List.map_nil,
      List.append_nil] at hyields
    exact .inl ⟨hrest, hyields⟩
  · have hspan : text.HasSpan (f.shift (Scan.ofText g text).stop).span := by
      have hspan := (Document.hasSpan_of_fault (hscan ▸ hfault)).1
      rwa [Document.text_ofSource, hscan] at hspan
    have hslice (tag : Text) (hkind : f.kind = .unrecognized tag) :
        text.slice (f.span.shift (Scan.ofText g text).stop) = tag := by
      have hslice := hfaulty.slice_shift ((Scan.ofText g text).lexemes.flatMap Lexeme.source) hkind
      rwa [← htext] at hslice
    rw [Scan.failure?, hfault, Option.map_some, Document.faultError_ofSource hspan] at hyields
    exact .inr ⟨f, hfaulty, hfaulty.unopened_iff, hspan, hslice, hyields⟩

end Cursor
end Templating
