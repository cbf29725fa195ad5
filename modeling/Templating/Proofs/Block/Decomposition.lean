import Mathlib.Data.List.Forall2
import Templating.Proofs.Block.Scan
import Templating.Proofs.Text.Offsets

/-!
# The texts that can be scanned

A text can be scanned exactly if it is a row of literal texts and tags in which no two literal texts
follow each other.  There is only one such row, and its passages are the blocks of the scan.

## What is here

* `Passage` is a literal text or a tag as it is written, and `Passage.Decomposition` a row of them that
  makes up a text.
* `Text.Trimmed`, `Passage.Makes` and `Span.Tile` say which blocks a row of passages makes, and where.
* `Document.parse_decomposition` says that those are the blocks of a scan, and that there is none where
  there is no such row.
-/

set_option autoImplicit false

namespace Templating

/-! ## Passages

A passage is what is written, without a word on how it is read.  The conditions on it are those that a
text can be held against: where delimiters are, and that a tag does not look like a directive that there
is not. -/

/-- A passage of a template as it is written: a literal text, or a tag with everything that stands
between its outer delimiters. -/
inductive Passage where
  | literal (text : Text)
  | tag (inside : Text)
  deriving DecidableEq, Repr

namespace Passage

/-- The text of a passage. -/
def source : Passage → Text
  | literal text => text
  | tag inside => outerOpening ++ inside ++ outerClosing

/-- Whether a passage is a literal text. -/
def isLiteral : Passage → Bool
  | literal _ => true
  | tag _ => false

/-- A literal text is not empty and holds no delimiter.  A tag ends at its first closing delimiter,
and the only directive is `@include`. -/
def Proper : Passage → Prop
  | literal text => text ≠ [] ∧ ¬ outerOpening <:+: text ∧ ¬ outerClosing <:+: text
  | tag inside => ¬ outerClosing <:+: inside ∧ (['@'] <+: inside → Tag.inclusion.suffix <+: inside)

/-- The text is made of these passages. -/
structure Row (t : Text) (row : List Passage) : Prop where
  proper : ∀ p ∈ row, p.Proper
  source : row.flatMap source = t

/-- The text is made of these passages, and no two literal texts follow each other. -/
structure Decomposition (t : Text) (row : List Passage) : Prop extends Row t row where
  apart : row.IsChain fun p q => ¬ (p.isLiteral = true ∧ q.isLiteral = true)

end Passage

/-! ## The blocks that passages make

A block has a kind, a content and a span.  What they are is said of the passage alone: the kind is told
by the opening delimiters that it starts with, and the content is what is inside, up to one line break
on either side. -/

/-- Nothing, or a line break. -/
def Text.breaks : List Text := [[], ['\n'], ['\r', '\n']]

/-- `t` is what is left of a text without the line break at its front and then without the one at its
end, as far as there are any. -/
def Text.Trimmed (body t : Text) : Prop :=
  ∃ front ∈ breaks, ∃ back ∈ breaks, body = front ++ t ++ back ∧
    (∀ b ∈ breaks, b <+: body → b.length ≤ front.length) ∧
      ∀ b ∈ breaks, b <:+ t ++ back → b.length ≤ back.length

/-- The block is what the passage stands for.  Of the opening delimiters that a tag starts with, the
longest one decides on its kind. -/
inductive Passage.Makes : Passage → Block → Prop
  | literal {text : Text} {b : Block} (hkind : b.kind = .text) (hcontent : b.content = text) :
      Makes (.literal text) b
  | tag {inside body : Text} {tag : Tag} {b : Block} (hkind : b.kind = .tag tag)
      (hopening : (Passage.tag inside).source = tag.opening ++ body ++ outerClosing)
      (hlongest : ∀ other : Tag, other.opening <+: (Passage.tag inside).source →
        other.opening.length ≤ tag.opening.length)
      (hcontent : Text.Trimmed body b.content) : Makes (.tag inside) b

/-- The spans follow each other from one offset to another, and none of them is empty. -/
inductive Span.Tile : Nat → List Span → Nat → Prop
  | nil {n : Nat} : Tile n [] n
  | cons {n m stop : Nat} {spans : List Span} (hlt : n < m) (hrest : Tile m spans stop) :
      Tile n (⟨n, m⟩ :: spans) stop

/-! ## Line breaks at the ends

The break in front is taken off first, and then the one at the end of what is left.  So a body that is a
single break loses it once. -/

namespace Text

/-- The longest break at the front goes. -/
theorem exists_dropBreak (body : Text) : ∃ front ∈ breaks, body = front ++ body.dropBreak ∧
    ∀ b ∈ breaks, b <+: body → b.length ≤ front.length := by
  unfold dropBreak
  split
  · next t => exact ⟨['\r', '\n'], by simp [breaks], rfl, by simp [breaks]⟩
  · next t => exact ⟨['\n'], by simp [breaks], rfl, by simp [breaks]⟩
  · next hcrlf hlf =>
    refine ⟨[], by simp [breaks], rfl, fun b hb hbody => ?_⟩
    obtain ⟨rest, rfl⟩ := hbody
    simp only [breaks, List.mem_cons, List.not_mem_nil, or_false] at hb
    rcases hb with rfl | rfl | rfl
    · exact Nat.le_refl _
    · exact absurd rfl (hlf rest)
    · exact absurd rfl (hcrlf rest)

/-- The longest break at the end goes. -/
theorem exists_dropFinalBreak (t : Text) : ∃ back ∈ breaks, t = t.dropFinalBreak ++ back ∧
    ∀ b ∈ breaks, b <:+ t → b.length ≤ back.length := by
  rcases List.eq_nil_or_concat t with rfl | ⟨s, c, rfl⟩
  · exact ⟨[], by simp [breaks], rfl, by simp [breaks]⟩
  · by_cases hc : c = '\n'
    · subst hc
      rcases List.eq_nil_or_concat s with rfl | ⟨r, c, rfl⟩
      · exact ⟨['\n'], by simp [breaks], rfl, by simp [breaks, ← List.reverse_prefix]⟩
      · by_cases hc : c = '\r'
        · subst hc
          exact ⟨['\r', '\n'], by simp [breaks], by simp [dropFinalBreak, chomp], by simp [breaks]⟩
        · refine ⟨['\n'], by simp [breaks], by simp [dropFinalBreak, chomp, hc], ?_⟩
          simp [breaks, ← List.reverse_prefix, Ne.symm hc]
    · refine ⟨[], by simp [breaks], by simp [dropFinalBreak, hc], ?_⟩
      simp [breaks, ← List.reverse_prefix, Ne.symm hc]

/-- Both are done one after the other. -/
theorem trimmed_trimBreaks (body : Text) : Trimmed body body.trimBreaks := by
  obtain ⟨front, hfront, hbody, hfirst⟩ := exists_dropBreak body
  obtain ⟨back, hback, hrest, hlast⟩ := exists_dropFinalBreak body.dropBreak
  rw [← trimBreaks] at hrest
  refine ⟨front, hfront, back, hback, ?_, hfirst, ?_⟩
  · rw [List.append_assoc, ← hrest]
    exact hbody
  · rwa [← hrest]

end Text

/-! ## Passages and lexemes

A lexeme is a passage that was read: what stands inside a tag is cut into what tells its kind and its
body.  Every passage can be cut so in one way, and nothing else is lost or added. -/

/-- A lexeme as a passage. -/
def Lexeme.passage : Lexeme → Passage
  | literal text => .literal text
  | tagged tag body => .tag (tag.suffix ++ body)

namespace Lexeme

/-- A lexeme is written as its passage is. -/
theorem source_passage (x : Lexeme) : x.passage.source = x.source := by
  cases x with
  | literal text => rfl
  | tagged tag body =>
    rw [passage, Passage.source, source, Tag.opening]
    simp only [List.append_assoc]
    rfl

/-- And so for some of them. -/
theorem flatMap_source_passage (xs : List Lexeme) :
    (xs.map passage).flatMap Passage.source = xs.flatMap source := by
  rw [List.flatMap_map]
  exact congrArg (xs.flatMap ·) (funext source_passage)

/-- Literal texts are literal texts. -/
theorem isLiteral_passage (x : Lexeme) : x.passage.isLiteral = !x.isTagged := by
  cases x with
  | literal text => rfl
  | tagged tag body => rfl

/-- What tells the kind of a tag has no part in a closing delimiter. -/
theorem not_infix_suffix_append {tag : Tag} {body : Text} (h : ¬ outerClosing <:+: body) :
    ¬ outerClosing <:+: tag.suffix ++ body := by
  have hsuffix : tag.suffix.Bare := by cases tag <;> decide
  rw [outerClosing, Text.infix_pair_append]
  rintro (hinside | hinside | ⟨hlast, -⟩)
  · exact hsuffix.plain.closing hinside
  · exact h hinside
  · exact (hsuffix '%' (List.mem_of_getLast? hlast)).2.1 rfl

/-- The passage of a lexeme is as it should be. -/
theorem proper_passage {x : Lexeme} (h : x.Valid) : x.passage.Proper := by
  cases x with
  | literal text => exact ⟨h.2, h.1.opening, h.1.closing⟩
  | tagged tag body =>
    refine ⟨not_infix_suffix_append h.closing, fun hdirective => ?_⟩
    cases tag with
    | inclusion => exact List.prefix_append _ _
    | print => simp [Tag.suffix] at hdirective
    | declaration => simp [Tag.suffix] at hdirective
    | code =>
      obtain ⟨rest, rfl⟩ := hdirective
      exact absurd rfl (h.code rfl '@' rfl).2.2

/-- Every passage that can be is a lexeme: what stands inside a tag shows of which kind it is. -/
theorem exists_passage_eq {p : Passage} (h : p.Proper) : ∃ x : Lexeme, x.Valid ∧ x.passage = p := by
  cases p with
  | literal text => exact ⟨literal text, ⟨⟨h.2.1, h.2.2⟩, h.1⟩, rfl⟩
  | tag inside =>
    obtain ⟨hclosing, hdirective⟩ := h
    by_cases hat : ['@'] <+: inside
    · obtain ⟨body, rfl⟩ := hdirective hat
      refine ⟨tagged .inclusion body, ⟨fun hbody => ?_, nofun⟩, rfl⟩
      exact hclosing (hbody.trans (List.suffix_append _ _).isInfix)
    · by_cases hprint : ['='] <+: inside
      · obtain ⟨body, rfl⟩ := hprint
        exact ⟨tagged .print body, ⟨fun hbody => hclosing (hbody.trans
          (List.suffix_append _ _).isInfix), nofun⟩, rfl⟩
      · by_cases hdeclaration : ['!'] <+: inside
        · obtain ⟨body, rfl⟩ := hdeclaration
          exact ⟨tagged .declaration body, ⟨fun hbody => hclosing (hbody.trans
            (List.suffix_append _ _).isInfix), nofun⟩, rfl⟩
        · refine ⟨tagged .code inside, ⟨hclosing, fun _ c hc => ?_⟩, rfl⟩
          obtain ⟨body, rfl⟩ := List.head?_eq_some_iff.1 hc
          simp only [List.cons_prefix_cons, List.nil_prefix, and_true] at hat hprint hdeclaration
          exact ⟨Ne.symm hprint, Ne.symm hdeclaration, Ne.symm hat⟩

/-- The same of a row of passages. -/
theorem exists_map_passage_eq {row : List Passage} (h : ∀ p ∈ row, p.Proper) :
    ∃ xs : List Lexeme, (∀ x ∈ xs, x.Valid) ∧ xs.map passage = row := by
  induction row with
  | nil => exact ⟨[], by simp, rfl⟩
  | cons p row ih =>
    obtain ⟨x, hx, rfl⟩ := exists_passage_eq (h p (List.mem_cons_self ..))
    obtain ⟨xs, hxs, rfl⟩ := ih fun q hq => h q (List.mem_cons_of_mem _ hq)
    exact ⟨x :: xs, by simpa using ⟨hx, hxs⟩, rfl⟩

/-- The rows of passages that have no two literal texts together are those that scans can give. -/
theorem decomposition_iff {t : Text} {row : List Passage} :
    Passage.Decomposition t row ↔ ∃ xs, Neat xs ∧ xs.flatMap source = t ∧ xs.map passage = row := by
  have hapart (xs : List Lexeme) : (xs.map passage).IsChain (fun p q =>
      ¬ (p.isLiteral = true ∧ q.isLiteral = true)) ↔
        xs.IsChain fun x y => x.isTagged = true ∨ y.isTagged = true := by
    rw [List.isChain_map]
    refine List.IsChain.iff fun x y => ?_
    rw [isLiteral_passage, isLiteral_passage]
    cases x.isTagged <;> simp
  constructor
  · rintro ⟨⟨hproper, hsource⟩, hchain⟩
    obtain ⟨xs, hxs, rfl⟩ := exists_map_passage_eq hproper
    exact ⟨xs, ⟨hxs, (hapart xs).1 hchain⟩, by rwa [flatMap_source_passage] at hsource, rfl⟩
  · rintro ⟨xs, hneat, rfl, rfl⟩
    refine ⟨⟨?_, flatMap_source_passage xs⟩, (hapart xs).2 hneat.apart⟩
    intro p hp
    obtain ⟨x, hx, rfl⟩ := List.mem_map.1 hp
    exact proper_passage (hneat.valid x hx)

end Lexeme

/-! ## Passages and blocks

The blocks of lexemes are laid out from an offset on, each as long as its source.  As no source is
empty, the spans are a tiling. -/

namespace Lexeme

/-- The block of a lexeme is what its passage makes. -/
theorem makes_passage {x : Lexeme} (h : x.Valid) (offset : Nat) :
    x.passage.Makes (x.block offset) := by
  cases x with
  | literal text => exact .literal rfl rfl
  | tagged tag body =>
    have hsource := source_passage (tagged tag body)
    refine .tag rfl hsource (fun other hother => ?_) (Text.trimmed_trimBreaks body)
    have hlongest := longest_of_admits h []
    rw [List.append_nil, ← List.append_assoc] at hlongest
    rw [← passage, hsource] at hother
    exact hlongest.length_le other (Grammar.mem_standard other) hother

/-- No lexeme is empty. -/
theorem source_ne_nil {x : Lexeme} (h : x.Valid) : x.source ≠ [] := by
  cases x with
  | literal text => exact h.2
  | tagged tag body => simp [source, tag.opening_ne_nil]

/-- The blocks of lexemes tile the text that they are. -/
theorem tile_blocks {xs : List Lexeme} (h : ∀ x ∈ xs, x.source ≠ []) (n : Nat) :
    Span.Tile n ((blocks n xs).map Block.span) (n + Text.size (xs.flatMap source)) := by
  induction xs generalizing n with
  | nil => exact .nil
  | cons x xs ih =>
    have hpos : 0 < x.size := Text.size_pos (h x (List.mem_cons_self ..))
    have hrest := ih (fun y hy => h y (List.mem_cons_of_mem _ hy)) (n + x.size)
    rw [List.flatMap_cons, Text.size_append, ← Nat.add_assoc]
    exact .cons (Nat.lt_add_of_pos_right hpos) hrest

/-- Each block covers the passage that makes it. -/
theorem forall₂_passage_blocks {t : Text} (front : Text) {xs : List Lexeme}
    (h : ∀ x ∈ xs, x.Valid) (ht : t = front ++ xs.flatMap source) :
    List.Forall₂ (fun p b => t.slice b.span = p.source ∧ p.Makes b) (xs.map passage)
      (blocks front.size xs) := by
  induction xs generalizing front with
  | nil => exact .nil
  | cons x xs ih =>
    rw [List.flatMap_cons, ← List.append_assoc] at ht
    have hrest := ih _ (fun y hy => h y (List.mem_cons_of_mem _ hy)) ht
    rw [Text.size_append] at hrest
    refine .cons ⟨?_, makes_passage (h x (List.mem_cons_self ..)) _⟩ hrest
    rw [source_passage]
    exact Text.slice_eq ht rfl rfl

end Lexeme

/-! ## Scans

That a scan gives a row was shown of lexemes, and that it gives back each row as well.  So there is one
row at most. -/

/-- **A text can be scanned exactly if it is a row of literal texts and tags with no two literal texts
together.**  That row is the only one, and the blocks of the scan are what its passages make: they
follow each other from the beginning of the text to its end, and each covers its passage. -/
theorem Document.parse_decomposition (d : Document) :
    ((∃ blocks, d.parse .standard = .ok blocks) ↔ ∃ row, Passage.Decomposition d.text row) ∧
    ∀ blocks, d.parse .standard = .ok blocks → ∃ row, Passage.Decomposition d.text row ∧
      (∀ row', Passage.Decomposition d.text row' → row' = row) ∧
      Span.Tile 0 (blocks.map Block.span) d.size ∧
      List.Forall₂ (fun p b => d.text.slice b.span = p.source ∧ p.Makes b) row blocks := by
  refine ⟨⟨?_, ?_⟩, ?_⟩
  · rintro ⟨blocks, hparse⟩
    obtain ⟨hfault, -⟩ := parse_eq_ok_iff.1 hparse
    obtain ⟨hneat, hsource⟩ := Scan.neat hfault
    exact ⟨_, Lexeme.decomposition_iff.2 ⟨_, hneat, hsource, rfl⟩⟩
  · rintro ⟨row, hrow⟩
    obtain ⟨xs, hneat, hsource, -⟩ := Lexeme.decomposition_iff.1 hrow
    refine ⟨_, parse_eq_ok_iff.2 ⟨?_, rfl⟩⟩
    rw [scan, ← hsource, hneat.scan]
  · intro blocks hparse
    obtain ⟨hfault, rfl⟩ := parse_eq_ok_iff.1 hparse
    obtain ⟨hneat, hsource⟩ := Scan.neat hfault
    refine ⟨_, Lexeme.decomposition_iff.2 ⟨_, hneat, hsource, rfl⟩, fun row' hrow' => ?_, ?_, ?_⟩
    · obtain ⟨xs, hneat', hsource', rfl⟩ := Lexeme.decomposition_iff.1 hrow'
      rw [← hsource', hneat'.scan]
    · have htile := Lexeme.tile_blocks (fun x hx => Lexeme.source_ne_nil (hneat.valid x hx)) 0
      rw [hsource, Nat.zero_add] at htile
      exact htile
    · exact Lexeme.forall₂_passage_blocks [] hneat.valid hsource.symm

/-- Two literal texts that follow each other can make up a delimiter. -/
theorem Document.parse_of_split_opening :
    (∃ row, Passage.Row ['<', '%'] row) ∧
      ∀ blocks, (Document.ofSource (.ofString "/a") ['<', '%']).parse .standard ≠ .ok blocks := by
  refine ⟨⟨[.literal ['<'], .literal ['%']], ?_, rfl⟩, ?_⟩
  · have hopening (c : Char) : ¬ ['<', '%'] <:+: [c] := by simp [List.infix_cons_iff]
    have hclosing (c : Char) : ¬ ['%', '>'] <:+: [c] := by simp [List.infix_cons_iff]
    intro p hp
    simp only [List.mem_cons, List.not_mem_nil, or_false] at hp
    rcases hp with rfl | rfl
    · exact ⟨List.cons_ne_nil _ _, hopening '<', hclosing '<'⟩
    · exact ⟨List.cons_ne_nil _ _, hopening '%', hclosing '%'⟩
  · intro blocks hparse
    obtain ⟨hfault, -⟩ := parse_eq_ok_iff.1 hparse
    have hunclosed : (Scan.ofText .standard ['<', '%']).fault
        = some ⟨.unclosed outerClosing, ⟨0, 2⟩⟩ := by
      rw [Grammar.standard_eq]
      decide +kernel
    rw [scan, show (ofSource _ ['<', '%']).text = ['<', '%'] from rfl, hunclosed] at hfault
    cases hfault

end Templating
