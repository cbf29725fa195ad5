import Mathlib.Logic.Relation
import Templating.Generator
import Templating.Proofs.FileSystem
import Templating.Proofs.Include.Outline

/-!
# The include graph, and include trees

Which files a build can come to follows from the texts of the files alone.  This file says what that
graph is, and what the expansion of a file is when it has one: the graph unrolled into a tree.

## What is here

* `Surroundings.text?` and `Surroundings.outline?` are the files as a build reads them,
  `Surroundings.Includes` the edges between accepted files, and `Surroundings.Mentions` those between
  files whose version nobody checks.  `Surroundings.Accepted` is what is known of an accepted file.
* `IncludeTree` is what the include tags of a file bring in, and `IncludeTree.Grows` says that a tree
  is made of the files there are.  `IncludeTree.pieces` writes a tree down as a document.
* `Surroundings.Unfolds` is the expansion of a file; `Unfolds.acc` says that no path of the graph that
  starts at an expanded file goes on forever, so none comes back to where it was
  (`Unfolds.not_transGen`).
-/

set_option autoImplicit false

namespace Templating

/-! ## Files as a build reads them

The edges of the graph are named by tags, and which tags a file has can be asked in two ways: of every
file that can be read, or only of those whose directive and tags are in order.  The first graph has more
edges.  It is the one in which a path that comes back can be trusted to be trouble; the second is the
one that a build goes along. -/

namespace Surroundings

variable (s : Surroundings) (chosen : Path → Option TextEncoding)

/-- The text of the file at a path, if it can be read.  `chosen` is the encoding that is asked for;
without one the encoding is guessed. -/
def text? (p : Path) : Option Text := (s.files.readText p (chosen p)).toOption.map Prod.fst

/-- The outline of the file at a path, if it can be read and is accepted. -/
def outline? (p : Path) : Option Outline :=
  (s.text? chosen p).bind fun text => (Outline.ofText s.running p text).toOption

/-- The file at `p` is accepted, and one of its include tags names `q`. -/
def Includes (p q : Path) : Prop := ∃ o, s.outline? chosen p = some o ∧ ∃ tag ∈ o.tags, tag.target = q

/-- The file at `p` can be read, and one of its include tags names `q`. -/
def Mentions (p q : Path) : Prop :=
  ∃ text tags, s.text? chosen p = some text ∧
    IncludeTag.findAll (.ofSource p text) = .ok tags ∧ ∃ tag ∈ tags, tag.target = q

variable {s chosen}

/-- A file has the text that it can be read as. -/
theorem text?_eq_some_iff {p : Path} {text : Text} :
    s.text? chosen p = some text ↔ ∃ e, s.files.readText p (chosen p) = .ok (text, e) := by
  rw [text?, Option.map_eq_some_iff]
  simp only [toOption_eq_some, Prod.exists, exists_and_right, exists_eq_right]

/-- A file has the outline of its text. -/
theorem outline?_eq_some_iff {p : Path} {o : Outline} :
    s.outline? chosen p = some o ↔
      ∃ text, s.text? chosen p = some text ∧ Outline.ofText s.running p text = .ok o := by
  simp only [outline?, Option.bind_eq_some_iff, toOption_eq_some]

/-- What is known of the file at a path with a given outline. -/
structure Accepted (s : Surroundings) (chosen : Path → Option TextEncoding) (p : Path)
    (o : Outline) : Prop where
  path : o.file.path = p
  read : s.text? chosen o.file.path = some o.file.text
  tags : IncludeTag.findAll (.ofSource o.file.path o.file.text) = .ok o.tags
  body : ∃ line rest, o.file.text = line ++ rest ∧ line.Bare ∧ o.start = line.size ∧
    IncludeTag.Found o.file.path line.size rest o.tags

/-- A file with an outline is accepted. -/
theorem accepted_of_outline? {p : Path} {o : Outline} (h : s.outline? chosen p = some o) :
    s.Accepted chosen p o := by
  obtain ⟨text, htext, hof⟩ := outline?_eq_some_iff.1 h
  obtain ⟨-, -, -, htags, -, -, -⟩ := Outline.ofText_eq_ok hof
  obtain ⟨hfile, line, rest, hsplit, hline, hstart, hfound⟩ := Outline.describes_of_ofText hof
  obtain ⟨file, start, tags⟩ := o
  dsimp only at hfile hstart
  subst hfile hstart
  exact ⟨rfl, htext, htags, line, rest, hsplit, hline, rfl, hfound⟩

/-- Every edge between accepted files is one of the larger graph. -/
theorem Includes.mentions {p q : Path} (h : s.Includes chosen p q) : s.Mentions chosen p q := by
  obtain ⟨o, ho, htag⟩ := h
  obtain ⟨text, htext, hof⟩ := outline?_eq_some_iff.1 ho
  obtain ⟨-, -, -, htags, -⟩ := Outline.ofText_eq_ok hof
  exact ⟨text, o.tags, htext, htags, htag⟩

/-- The tags of an accepted file are the only ones it has. -/
theorem Mentions.of_outline {p q : Path} {o : Outline} (h : s.Mentions chosen p q)
    (ho : s.outline? chosen p = some o) : ∃ tag ∈ o.tags, tag.target = q := by
  obtain ⟨text, htext, hof⟩ := outline?_eq_some_iff.1 ho
  obtain ⟨-, -, -, htags, -⟩ := Outline.ofText_eq_ok hof
  obtain ⟨text', tags', htext', htags', htag⟩ := h
  rw [htext, Option.some_inj] at htext'
  subst htext'
  rw [htags, Except.ok.injEq] at htags'
  subst htags'
  exact htag

end Surroundings

/-! ## Include trees

A tree keeps the outlines of all files that it is made of, so it can be written down as a document
without asking for a file again.  A file that is included twice is in it twice. -/

/-- What include tags of a file bring in: the file that the first one names with what its own tags
bring in, and what the later ones bring in. -/
inductive IncludeTree where
  | done
  | tag (tag : IncludeTag) (included : Outline) (below later : IncludeTree)

namespace IncludeTree

variable {s : Surroundings} {chosen : Path → Option TextEncoding}

/-- A tree is what tags bring in when each names a file that is accepted. -/
inductive Grows (s : Surroundings) (chosen : Path → Option TextEncoding) :
    List IncludeTag → IncludeTree → Prop
  | done : Grows s chosen [] done
  | tag {tag : IncludeTag} {tags : List IncludeTag} {o : Outline} {below later : IncludeTree}
      (ho : s.outline? chosen tag.target = some o) (hbelow : Grows s chosen o.tags below)
      (hlater : Grows s chosen tags later) :
      Grows s chosen (tag :: tags) (.tag tag o below later)

/-- The text of a file from offset `cursor` on, with what its tags bring in. -/
def pieces (file : SourceFile) (cursor : Nat) : IncludeTree → List Piece
  | done => Piece.copied file ⟨cursor, file.text.size⟩
  | tag t o below later =>
    Piece.copied file ⟨cursor, t.span.start⟩
      ++ t.replacement file ⟨o.file, below.pieces o.file o.start⟩ ++ later.pieces file t.span.stop

/-- A tree is finite, so no path of the graph goes on forever from one of its tags. -/
theorem Grows.acc {tags : List IncludeTag} {tree : IncludeTree} (h : Grows s chosen tags tree) :
    ∀ tag ∈ tags, Acc (fun q p => s.Mentions chosen p q) tag.target := by
  induction h with
  | done => simp
  | tag ho _ _ ihbelow ihlater =>
    intro tag hmem
    rcases List.mem_cons.1 hmem with rfl | hmem
    · refine Acc.intro _ fun q hq => ?_
      obtain ⟨tag', hmem', rfl⟩ := hq.of_outline ho
      exact ihbelow tag' hmem'
    · exact ihlater tag hmem

end IncludeTree

/-! ## Expansions

That a file has an expansion is a statement about the files alone: it says that there is a tree, not how
it is found, and nothing of what is in progress or remembered. -/

namespace Surroundings

variable {s : Surroundings} {chosen : Path → Option TextEncoding} {p q : Path} {d : Document}

/-- `d` is the expansion of the file at `p`. -/
def Unfolds (s : Surroundings) (chosen : Path → Option TextEncoding) (p : Path) (d : Document) :
    Prop :=
  ∃ o tree, s.outline? chosen p = some o ∧ IncludeTree.Grows s chosen o.tags tree ∧
    d = ⟨o.file, tree.pieces o.file o.start⟩

/-- No path goes on forever from a file that has an expansion. -/
theorem Unfolds.acc (h : s.Unfolds chosen p d) : Acc (fun q p => s.Mentions chosen p q) p := by
  obtain ⟨o, tree, ho, htree, -⟩ := h
  refine Acc.intro _ fun q hq => ?_
  obtain ⟨tag, hmem, rfl⟩ := hq.of_outline ho
  exact htree.acc tag hmem

/-- What is accessible is not related to itself. -/
theorem not_rel_self_of_acc {α : Type} {r : α → α → Prop} {a : α} (h : Acc r a) : ¬ r a a := by
  induction h with
  | intro a _ ih => exact fun ha => ih a ha ha

/-- **What can be expanded does not lead into a cycle.** -/
theorem Unfolds.not_transGen (h : s.Unfolds chosen p d)
    (hreach : Relation.ReflTransGen (s.Mentions chosen) p q) :
    ¬ Relation.TransGen (s.Mentions chosen) q q := by
  have hacc : Acc (fun q p => s.Mentions chosen p q) q := by
    induction hreach with
    | refl => exact h.acc
    | tail _ hedge ih => exact ih.inv hedge
  exact fun hcycle => not_rel_self_of_acc hacc.transGen (Relation.transGen_swap.2 hcycle)

/-- Nor does the path of a build come back to it. -/
theorem Unfolds.not_transGen_includes (h : s.Unfolds chosen p d) :
    ¬ Relation.TransGen (s.Includes chosen) p p :=
  fun hcycle => h.not_transGen .refl (Relation.TransGen.mono (fun _ _ hpq => hpq.mentions) _ _ hcycle)

end Surroundings
end Templating
