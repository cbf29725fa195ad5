import Templating.Proofs.Block.Scan
import Templating.Proofs.Include.Graph

/-!
# Walks through the tags of files

The tags of a template and of what it includes, as a reader comes to them who goes through the blocks
of each file by itself and, at an include tag, turns to the file that the tag names.

## What is here

* `Surroundings.blocks?` and `Surroundings.tags?` are the blocks and the include tags of a file as it
  is, and `Surroundings.Orderly` says that the two agree.
* `Surroundings.Walk` is a walk; `Walk.functional` says that it can end in one way only.
-/

set_option autoImplicit false

namespace Templating

/-! ## Include tags of a file

A walk comes to an include tag as a block, and has to find out which of the tags of the file that is.
The place where it starts is enough. -/

namespace IncludeTag

/-- All tags start behind the offset of the text. -/
theorem Found.le_start {path : Path} {n : Nat} {t : Text} {tags : List IncludeTag}
    (h : Found path n t tags) : ∀ tag ∈ tags, n ≤ tag.span.start := by
  induction h with
  | nil => simp
  | cons _ _ _ _ ih =>
    intro tag hmem
    rcases List.mem_cons.1 hmem with rfl | hmem
    · exact Nat.le_add_right _ _
    · have hle := ih tag hmem
      omega

/-- A text without tags has no opening of one. -/
theorem Found.not_infix {path : Path} {n : Nat} {t : Text} (h : Found path n t []) :
    ¬ Tag.inclusion.opening <:+: t := by
  cases h with
  | nil h => exact h

/-- A tag of a file is known by the place where it starts. -/
theorem Found.eq_of_start {path : Path} {n : Nat} {t : Text} {tags : List IncludeTag}
    (h : Found path n t tags) {tag tag' : IncludeTag} (htag : tag ∈ tags) (htag' : tag' ∈ tags)
    (hstart : tag.span.start = tag'.span.start) : tag = tag' := by
  induction h with
  | nil => simp at htag
  | @cons n lead body rest includePath tags _ _ _ hrest ih =>
    have hlater := hrest.le_start
    have hpos : 0 < (Tag.inclusion.opening ++ body ++ Tag.inclusion.closing).size :=
      Text.size_pos (by simp [Tag.opening, outerOpening])
    rcases List.mem_cons.1 htag with rfl | htag
    · rcases List.mem_cons.1 htag' with rfl | htag'
      · rfl
      · have hle := hlater tag' htag'
        dsimp only at hstart
        omega
    · rcases List.mem_cons.1 htag' with rfl | htag'
      · have hle := hlater tag htag
        dsimp only at hstart
        omega
      · exact ih htag htag'

end IncludeTag

/-! ## Files as they are

Neither the blocks nor the include tags of a file depend on how it was come to, or on what is to become
of it.  The two are looked for in different ways, and they may differ: an include tag can be hidden in
the code of another tag.  A file in which that is so is not orderly. -/

namespace Surroundings

variable (s : Surroundings) (chosen : Path → Option TextEncoding)

/-- The blocks of the file at a path, if it can be read and scanned. -/
def blocks? (p : Path) : Option (List Block) :=
  (s.text? chosen p).bind fun text => ((Document.ofSource p text).parse .standard).toOption

/-- The include tags of the file at a path, if it can be read and they are as they should be. -/
def tags? (p : Path) : Option (List IncludeTag) :=
  (s.text? chosen p).bind fun text => (IncludeTag.findAll (.ofSource p text)).toOption

/-- The file at a path can be scanned, its include tags are tags of the scan, and no path in them
holds an opening delimiter. -/
def Orderly (p : Path) : Prop :=
  ∃ blocks ∈ s.blocks? chosen p, ∀ tags ∈ s.tags? chosen p, ∀ tag ∈ tags,
    (∃ b ∈ blocks, b.kind = .tag .inclusion ∧ b.span = tag.span) ∧
      ¬ outerOpening <:+: tag.includePath

variable {s chosen}

/-- What is known of a file that can be scanned. -/
theorem neat_of_blocks? {p : Path} {text : Text} {blocks : List Block}
    (htext : s.text? chosen p = some text) (h : s.blocks? chosen p = some blocks) :
    ∃ xs, Lexeme.Neat xs ∧ xs.flatMap Lexeme.source = text ∧ blocks = Lexeme.blocks 0 xs := by
  rw [blocks?, htext, Option.bind_some] at h
  obtain ⟨hfault, rfl⟩ := Document.parse_eq_ok_iff.1 (toOption_eq_some.1 h)
  rw [Document.scan, Document.text_ofSource] at hfault ⊢
  obtain ⟨hneat, hsource⟩ := Scan.neat hfault
  exact ⟨_, hneat, hsource, rfl⟩

/-- The include tags of a file are those that are found in its text. -/
theorem tags?_eq_some_iff {p : Path} {tags : List IncludeTag} :
    s.tags? chosen p = some tags ↔ ∃ text, s.text? chosen p = some text ∧
      IncludeTag.findAll (.ofSource p text) = .ok tags := by
  simp only [tags?, Option.bind_eq_some_iff, toOption_eq_some]

/-! ## Walks

A walk is a relation, so that it does not have to be shown to end.  It does not, if a file includes
itself. -/

variable (s chosen) in
/-- The tags that a walk through some blocks of a file comes to, with their kinds and contents.  At an
include tag it goes through the file that the tag names. -/
inductive Walk : Path → List Block → List (Tag × Text) → Prop
  | nil {p : Path} : Walk p [] []
  | text {p : Path} {b : Block} {bs : List Block} {found : List (Tag × Text)} (hkind : b.kind = .text)
      (hrest : Walk p bs found) : Walk p (b :: bs) found
  | tag {p : Path} {b : Block} {bs : List Block} {kind : Tag} {found : List (Tag × Text)}
      (hkind : b.kind = .tag kind) (hother : kind ≠ .inclusion) (hrest : Walk p bs found) :
      Walk p (b :: bs) ((kind, b.content) :: found)
  | inclusion {p : Path} {b : Block} {bs blocks : List Block} {tags : List IncludeTag}
      {tag : IncludeTag} {inner outer : List (Tag × Text)} (hkind : b.kind = .tag .inclusion)
      (htags : s.tags? chosen p = some tags) (htag : tag ∈ tags) (hspan : tag.span = b.span)
      (hblocks : s.blocks? chosen tag.target = some blocks) (hinner : Walk tag.target blocks inner)
      (hrest : Walk p bs outer) : Walk p (b :: bs) (inner ++ outer)

namespace Walk

/-- A walk has one outcome only. -/
theorem functional {p : Path} {bs : List Block} {found found' : List (Tag × Text)}
    (h : s.Walk chosen p bs found) (h' : s.Walk chosen p bs found') : found = found' := by
  -- At each block the second walk can do only what the first one did.
  induction h generalizing found' with
  | nil =>
    cases h'
    rfl
  | text hkind _ ih =>
    cases h' with
    | text _ hrest' => exact ih hrest'
    | tag hkind' _ _ => simp [hkind] at hkind'
    | inclusion hkind' _ _ _ _ _ _ => simp [hkind] at hkind'
  | tag hkind hother _ ih =>
    cases h' with
    | text hkind' _ => simp [hkind] at hkind'
    | tag hkind' _ hrest' =>
      rw [hkind, BlockKind.tag.injEq] at hkind'
      rw [hkind', ih hrest']
    | inclusion hkind' _ _ _ _ _ _ =>
      rw [hkind, BlockKind.tag.injEq] at hkind'
      exact absurd hkind' hother
  | @inclusion p b bs blocks tags tag inner outer hkind htags htag hspan hblocks _ _ ihinner
      ihrest =>
    cases h' with
    | text hkind' _ => simp [hkind] at hkind'
    | tag hkind' hother' _ =>
      rw [hkind, BlockKind.tag.injEq] at hkind'
      exact absurd hkind'.symm hother'
    | @inclusion _ _ _ blocks' tags' tag' _ _ _ htags' htag' hspan' hblocks' hinner' hrest' =>
      rw [htags, Option.some_inj] at htags'
      subst htags'
      obtain ⟨text, -, hfind⟩ := tags?_eq_some_iff.1 htags
      have hstart : tag.span.start = tag'.span.start := by rw [hspan, hspan']
      obtain rfl := (IncludeTag.found_of_findFrom hfind).eq_of_start htag htag' hstart
      rw [hblocks, Option.some_inj] at hblocks'
      subst hblocks'
      rw [ihinner hinner', ihrest hrest']

/-- Once a walk is known, every other one is the same. -/
theorem iff_eq {p : Path} {bs : List Block} {found found' : List (Tag × Text)}
    (h : s.Walk chosen p bs found) : s.Walk chosen p bs found' ↔ found' = found := by
  constructor
  · intro h'
    exact h'.functional h
  · rintro rfl
    exact h

/-- Literal texts make no difference to a walk. -/
theorem of_filter {p : Path} {bs : List Block} {found : List (Tag × Text)}
    (h : s.Walk chosen p (bs.filter Block.isTag) found) : s.Walk chosen p bs found := by
  induction bs generalizing found with
  | nil => exact h
  | cons b bs ih =>
    cases hkind : b.kind with
    | text =>
      rw [List.filter_cons_of_neg (by simp [Block.isTag, hkind])] at h
      exact .text hkind (ih h)
    | tag kind =>
      rw [List.filter_cons_of_pos (by simp [Block.isTag, hkind])] at h
      cases h with
      | text hkind' _ => simp [hkind] at hkind'
      | tag hkind' hother hrest => exact .tag hkind' hother (ih hrest)
      | inclusion hkind' htags htag hspan hblocks hinner hrest =>
        exact .inclusion hkind' htags htag hspan hblocks hinner (ih hrest)

/-- Where there is no include tag, a walk comes to the tags there are. -/
theorem append_lexemes {p : Path} {n : Nat} {xs : List Lexeme} {bs : List Block}
    {found : List (Tag × Text)} (hxs : ¬ Tag.inclusion.opening <:+: xs.flatMap Lexeme.source)
    (h : s.Walk chosen p bs found) :
    s.Walk chosen p ((Lexeme.blocks n xs).filter Block.isTag ++ bs)
      (xs.filterMap Lexeme.tag? ++ found) := by
  induction xs generalizing n with
  | nil => exact h
  | cons x xs ih =>
    rw [List.flatMap_cons] at hxs
    have hrest := ih (n := n + x.size) fun hpart =>
      hxs (hpart.trans (List.suffix_append _ _).isInfix)
    cases x with
    | literal text => exact hrest
    | tagged tag body =>
      refine .tag rfl ?_ hrest
      rintro rfl
      refine hxs ?_
      rw [Lexeme.source, List.append_assoc, List.append_assoc]
      exact (List.prefix_append _ _).isInfix

/-- A walk up to an include tag, through the file that it names, and on behind it. -/
theorem append_inclusion {p : Path} {n : Nat} {lead back : List Lexeme} {body : Text}
    {tags : List IncludeTag} {tag : IncludeTag} {blocks : List Block} {inner outer : List (Tag × Text)}
    (hlead : ¬ Tag.inclusion.opening <:+: lead.flatMap Lexeme.source)
    (htags : s.tags? chosen p = some tags) (htag : tag ∈ tags)
    (hspan : tag.span = ((Lexeme.tagged .inclusion body).block
      (n + Text.size (lead.flatMap Lexeme.source))).span)
    (hblocks : s.blocks? chosen tag.target = some blocks)
    (hinner : s.Walk chosen tag.target blocks inner)
    (houter : s.Walk chosen p ((Lexeme.blocks tag.span.stop back).filter Block.isTag) outer) :
    s.Walk chosen p
      ((Lexeme.blocks n (lead ++ .tagged .inclusion body :: back)).filter Block.isTag)
      (lead.filterMap Lexeme.tag? ++ (inner ++ outer)) := by
  have hhere : (Lexeme.blocks n (lead ++ .tagged .inclusion body :: back)).filter Block.isTag
      = (Lexeme.blocks n lead).filter Block.isTag
        ++ ((Lexeme.tagged .inclusion body).block (n + Text.size (lead.flatMap Lexeme.source))
          :: (Lexeme.blocks tag.span.stop back).filter Block.isTag) := by
    rw [Lexeme.blocks_append, List.filter_append, Lexeme.blocks, hspan]
    rfl
  rw [hhere]
  exact append_lexemes hlead (.inclusion rfl htags htag hspan hblocks hinner houter)

end Walk
end Surroundings
end Templating
