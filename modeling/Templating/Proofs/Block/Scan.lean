import Mathlib.Data.List.Chain
import Templating.Proofs.Block.Lexeme

/-!
# Scans of texts that are put together

Where no delimiter lies across the seam, the tags of two texts that are put together are the tags of
the one and those of the other.

## What is here

* `Reads` says which tags a text has, however its literal texts are cut up; `Reads.append` puts two texts
  together, and `Reads.scan` says that those tags are what a scan finds.
* `Scan.ofText_induct` is induction on a scan: it is at the end, it stops at a fault, or it goes on
  behind a lexeme.
* `Lexeme.Neat` is a row of lexemes that a scan can give (`Scan.neat`), whole or in part; `Neat.reads`
  reads its text again, and `Neat.scan` says that the scan gives back the row.
-/

set_option autoImplicit false

namespace Templating

/-! ## The tags of a text

Two scans of the same tags may cut up the text between them in different ways, and it cannot be told
beforehand how the text of an expanded template will be cut.  `Reads` therefore keeps the tags and
forgets the text between them, but for one thing: there is no delimiter in it.  That is what makes it go
well with putting texts together. -/

/-- The kind and the content of the tag that a lexeme is. -/
def Lexeme.tag? : Lexeme → Option (Tag × Text)
  | literal _ => none
  | tagged tag body => some (tag, body.trimBreaks)

/-- The text has tags of these kinds and with these contents, and nothing else in it is a delimiter. -/
inductive Reads : Text → List (Tag × Text) → Prop
  | plain {t : Text} (h : t.Plain) : Reads t []
  | tag {lead body rest : Text} {tag : Tag} {tags : List (Tag × Text)} (hlead : lead.Plain)
      (hbody : tag.Admits body) (hrest : Reads rest tags) :
      Reads (lead ++ ((Lexeme.tagged tag body).source ++ rest)) ((tag, body.trimBreaks) :: tags)

/-- **Tags of texts that are put together**, if no delimiter lies across the seam. -/
theorem Reads.append {s t : Text} {tags tags' : List (Tag × Text)} (hs : Reads s tags)
    (ht : Reads t tags') (hseam : Text.Seam s t) : Reads (s ++ t) (tags ++ tags') := by
  -- Only the last literal text of the first one meets the second one.
  induction hs with
  | plain h =>
    cases ht with
    | plain h' => exact .plain (h.append h' hseam)
    | tag hlead hbody hrest =>
      rw [← List.append_assoc]
      exact .tag (h.append hlead hseam.of_append_right) hbody hrest
  | tag hlead hbody _ ih =>
    rw [← List.append_assoc] at hseam
    rw [List.append_assoc, List.append_assoc]
    exact .tag hlead hbody (ih hseam.of_append_left)

/-- Text without delimiters in front adds no tag. -/
theorem Reads.plain_append {s t : Text} {tags : List (Tag × Text)} (hs : s.Plain)
    (ht : Reads t tags) (hseam : Text.Seam s t) : Reads (s ++ t) tags :=
  Reads.append (.plain hs) ht hseam

/-! ## Scans

A scan reads a lexeme and goes on with the rest.  Its own recursion has a proof that the rest is shorter
in it, so the three ways in which it can go are stated once, as equations and as a principle of
induction. -/

/-- A tag starts with an opening. -/
theorem Lexeme.opening_prefix_tagged (tag : Tag) (body rest : Text) :
    outerOpening <+: (tagged tag body).source ++ rest := by
  rw [source, Tag.opening]
  simp only [List.append_assoc]
  exact List.prefix_append _ _

namespace Scan

/-- A lexeme is read, and the scan goes on behind it. -/
theorem ofText_of_next {g : Grammar} {t rest : Text} {x : Lexeme}
    (h : Lexeme.next g t = .ok (x, rest)) :
    ofText g t = ⟨x :: (ofText g rest).lexemes, (ofText g rest).fault⟩ := by
  rw [ofText, if_neg (Lexeme.ne_nil_of_next h)]
  split
  · next f hnext =>
    rw [h] at hnext
    cases hnext
  · next y after hnext =>
    rw [h] at hnext
    cases hnext
    rfl

/-- The scan stops at a fault. -/
theorem ofText_of_fault {g : Grammar} {t : Text} {f : Fault} (hne : t ≠ [])
    (h : Lexeme.next g t = .error f) : ofText g t = ⟨[], some f⟩ := by
  rw [ofText, if_neg hne]
  split
  · next f' hnext =>
    rw [h] at hnext
    cases hnext
    rfl
  · next y after hnext =>
    rw [h] at hnext
    cases hnext

/-- Induction over a scan: it is at the end, it stops at a fault, or it reads one more lexeme. -/
theorem ofText_induct {g : Grammar} {motive : Text → Scan → Prop} (finish : motive [] ⟨[], none⟩)
    (fault : ∀ t f, t ≠ [] → Lexeme.next g t = .error f → motive t ⟨[], some f⟩)
    (step : ∀ t x rest, Lexeme.next g t = .ok (x, rest) → motive rest (ofText g rest) →
      motive t ⟨x :: (ofText g rest).lexemes, (ofText g rest).fault⟩) (t : Text) :
    motive t (ofText g t) := by
  induction hn : t.length using Nat.strongRecOn generalizing t with
  | _ n ih =>
    by_cases hne : t = []
    · subst hne
      rw [ofText, if_pos rfl]
      exact finish
    · cases hnext : Lexeme.next g t with
      | error f =>
        rw [ofText_of_fault hne hnext]
        exact fault t f hne hnext
      | ok r =>
        obtain ⟨x, rest⟩ := r
        rw [ofText_of_next hnext]
        exact step t x rest hnext (ih rest.length (hn ▸ Lexeme.next_length hnext) rest rfl)

/-- A text without delimiters is one literal text, if it is not empty. -/
theorem ofText_of_plain {t : Text} (h : t.Plain) :
    ofText .standard t = ⟨if t = [] then [] else [.literal t], none⟩ := by
  split
  · next hnil => rw [hnil, ofText, if_pos rfl]
  · next hne =>
    have hnext := Lexeme.next_literal h hne (.inl rfl)
    rw [List.append_nil] at hnext
    rw [ofText_of_next hnext, ofText, if_pos rfl]

end Scan

/-- The tags of a text are what its scan finds. -/
theorem Reads.scan {t : Text} {tags : List (Tag × Text)} (h : Reads t tags) :
    (Scan.ofText .standard t).fault = none ∧
      (Scan.ofText .standard t).lexemes.filterMap Lexeme.tag? = tags := by
  induction h with
  | plain h =>
    rw [Scan.ofText_of_plain h]
    refine ⟨rfl, ?_⟩
    dsimp only
    split
    · rfl
    · rfl
  | @tag lead body rest tag tags hlead hbody _ ih =>
    have htag := Scan.ofText_of_next (Lexeme.next_tagged hbody rest)
    obtain ⟨hfault, htags⟩ := ih
    have hscan : (Scan.ofText .standard ((Lexeme.tagged tag body).source ++ rest)).fault = none ∧
        (Scan.ofText .standard ((Lexeme.tagged tag body).source ++ rest)).lexemes.filterMap
          Lexeme.tag? = (tag, body.trimBreaks) :: tags := by
      rw [htag]
      refine ⟨hfault, ?_⟩
      rw [List.filterMap_cons, htags]
      rfl
    by_cases hne : lead = []
    · subst hne
      exact hscan
    · have hopening := Lexeme.opening_prefix_tagged tag body rest
      rw [Scan.ofText_of_next (Lexeme.next_literal hlead hne (.inr hopening))]
      exact hscan

/-! ## Rows of lexemes

Not every row of lexemes can come from a scan: a scan does not cut a literal text in two.  Apart from
that, and from what each lexeme has to be, nothing is asked of them (`Neat`), and a scan of their
sources gives them back.  So parts of such a row are such rows again, which is needed where a file is
taken apart at its include tags. -/

namespace Lexeme

/-- Lexemes that a scan can give one after the other: no two literal texts follow each other. -/
structure Neat (xs : List Lexeme) : Prop where
  valid : ∀ x ∈ xs, x.Valid
  apart : xs.IsChain fun x y => x.isTagged = true ∨ y.isTagged = true

/-- No lexemes at all. -/
theorem neat_nil : Neat [] := ⟨fun _ h => absurd h List.not_mem_nil, .nil⟩

/-- The front of a row. -/
theorem Neat.of_append_left {xs ys : List Lexeme} (h : Neat (xs ++ ys)) : Neat xs :=
  ⟨fun x hx => h.valid x (List.mem_append_left _ hx), h.apart.left_of_append⟩

/-- The back of a row. -/
theorem Neat.of_append_right {xs ys : List Lexeme} (h : Neat (xs ++ ys)) : Neat ys :=
  ⟨fun x hx => h.valid x (List.mem_append_right _ hx), h.apart.right_of_append⟩

/-- What follows a literal text is nothing, or starts like a tag. -/
theorem Neat.after_literal {text : Text} {xs : List Lexeme} (h : Neat (literal text :: xs)) :
    xs.flatMap source = [] ∨ outerOpening <+: xs.flatMap source := by
  cases xs with
  | nil => exact .inl rfl
  | cons y xs =>
    cases y with
    | literal text' => exact absurd (List.isChain_cons_cons.1 h.apart).1 (by simp [isTagged])
    | tagged tag body => exact .inr (opening_prefix_tagged tag body _)

/-- A row of lexemes is what the scan of its text gives. -/
theorem Neat.scan {xs : List Lexeme} (h : Neat xs) :
    Scan.ofText .standard (xs.flatMap source) = ⟨xs, none⟩ := by
  induction xs with
  | nil => rw [List.flatMap_nil, Scan.ofText, if_pos rfl]
  | cons x xs ih =>
    have hxs : Neat xs := Neat.of_append_right (show Neat ([x] ++ xs) from h)
    have hx : x.Valid := h.valid x (List.mem_cons_self ..)
    have hnext : next .standard (x.source ++ xs.flatMap source) = .ok (x, xs.flatMap source) := by
      cases x with
      | tagged tag body => exact next_tagged hx _
      | literal text => exact next_literal hx.1 hx.2 h.after_literal
    rw [List.flatMap_cons, Scan.ofText_of_next hnext, ih hxs]

/-- A row of lexemes has the tags that are in it. -/
theorem Neat.reads {xs : List Lexeme} (h : Neat xs) :
    Reads (xs.flatMap source) (xs.filterMap tag?) := by
  induction xs with
  | nil => exact .plain Text.plain_nil
  | cons x xs ih =>
    have hxs : Neat xs := Neat.of_append_right (show Neat ([x] ++ xs) from h)
    have hx : x.Valid := h.valid x (List.mem_cons_self ..)
    rw [List.flatMap_cons]
    cases x with
    | tagged tag body => exact .tag Text.plain_nil hx (ih hxs)
    | literal text =>
      refine Reads.plain_append hx.1 (ih hxs) ?_
      rcases h.after_literal with hnil | hopening
      · rw [hnil]
        exact Text.seam_of_head nofun
      · exact Text.seam_of_head_eq (Text.head?_of_opening_prefix hopening) (by decide)

/-- What is read at an opening is a tag. -/
theorem isTagged_of_next {t rest : Text} {x : Lexeme}
    (h : next .standard (outerOpening ++ t) = .ok (x, rest)) : x.isTagged = true := by
  cases (next_eq_ok_iff Grammar.sorted_standard).1 h with
  | literal ht hplain hne hrest =>
    have hlead := lead_of_opening (List.prefix_append outerOpening t)
    rw [ht, lead_append hplain.opening hrest] at hlead
    exact absurd hlead hne
  | tagged => rfl

end Lexeme

/-- The first lexeme of a scan is what is read first. -/
theorem Scan.next_of_head? {g : Grammar} {t : Text} {x : Lexeme}
    (h : x ∈ (Scan.ofText g t).lexemes.head?) : ∃ rest, Lexeme.next g t = .ok (x, rest) := by
  rw [ofText] at h
  split at h
  · simp at h
  · split at h
    · simp at h
    · next y rest hnext =>
      cases h
      exact ⟨rest, hnext⟩

/-- A scan that comes to the end gives a row of lexemes that make up the text. -/
theorem Scan.neat {t : Text} (h : (Scan.ofText .standard t).fault = none) :
    Lexeme.Neat (Scan.ofText .standard t).lexemes ∧
      (Scan.ofText .standard t).lexemes.flatMap Lexeme.source = t := by
  revert h
  induction t using Scan.ofText_induct (g := .standard) with
  | finish => exact fun _ => ⟨Lexeme.neat_nil, rfl⟩
  | fault t f _ _ => exact fun h => absurd h (by simp)
  | step t x rest hnext ih =>
    intro h
    obtain ⟨hvalid, hrest⟩ := Lexeme.valid_of_next hnext
    obtain ⟨hneat, hsource⟩ := ih h
    refine ⟨⟨?_, ?_⟩, ?_⟩
    · intro y hy
      rcases List.mem_cons.1 hy with rfl | hy
      · exact hvalid
      · exact hneat.valid y hy
    · refine List.isChain_cons.2 ⟨fun y hy => ?_, hneat.apart⟩
      by_cases hx : x.isTagged = true
      · exact .inl hx
      · obtain ⟨after, hnext'⟩ := next_of_head? hy
        rcases hrest (by simpa using hx) with rfl | ⟨inside, rfl⟩
        · exact absurd (Lexeme.next_eq hnext').1.symm (by simp [(Lexeme.next_eq hnext').2])
        · exact .inr (Lexeme.isTagged_of_next hnext')
    · rw [List.flatMap_cons, hsource]
      exact (Lexeme.next_eq hnext).1.symm

/-! ## Blocks

Blocks are lexemes with their places in the text.  Of the blocks that are tags the places do not depend
on how the text in front of them is cut up, only on how long it is. -/

/-- A document can be parsed if its scan has no fault. -/
theorem Document.parse_eq_ok_iff {d : Document} {g : Grammar} {blocks : List Block} :
    d.parse g = .ok blocks ↔ (d.scan g).fault = none ∧ (d.scan g).blocks = blocks := by
  rw [parse, Scan.failure?]
  cases (d.scan g).fault with
  | none => simp
  | some f => simp

/-- Whether a block is a tag. -/
def Block.isTag (b : Block) : Bool := b.kind ≠ .text

/-- The kinds and the contents of the tags among some blocks. -/
def Block.tags (blocks : List Block) : List (Tag × Text) :=
  blocks.filterMap fun b =>
    match b.kind with
    | .text => none
    | .tag tag => some (tag, b.content)

namespace Lexeme

/-- The second of two rows starts where the first one ends. -/
theorem blocks_append (n : Nat) (xs ys : List Lexeme) :
    blocks n (xs ++ ys) = blocks n xs ++ blocks (n + Text.size (xs.flatMap source)) ys := by
  induction xs generalizing n with
  | nil => rfl
  | cons x xs ih =>
    rw [List.cons_append, blocks, ih, List.flatMap_cons, Text.size_append, ← Nat.add_assoc]
    rfl

/-- Blocks have the tags that the lexemes are. -/
theorem tags_blocks (n : Nat) (xs : List Lexeme) : Block.tags (blocks n xs) = xs.filterMap tag? := by
  induction xs generalizing n with
  | nil => rfl
  | cons x xs ih =>
    have hrest := ih (n + x.size)
    rw [Block.tags] at hrest ⊢
    rw [blocks, List.filterMap_cons, List.filterMap_cons, hrest]
    cases x with
    | literal text => rfl
    | tagged tag body => rfl

/-- No block starts behind the end of the text. -/
theorem start_of_mem_blocks {n : Nat} {xs : List Lexeme} {b : Block} (h : b ∈ blocks n xs) :
    b.span.start ≤ n + Text.size (xs.flatMap source) := by
  induction xs generalizing n with
  | nil => simp [blocks] at h
  | cons x xs ih =>
    rw [List.flatMap_cons, Text.size_append]
    rcases List.mem_cons.1 h with rfl | h
    · exact Nat.le_add_right _ _
    · have hle := ih h
      rw [size] at hle
      omega

/-- A block is made by one of the lexemes. -/
theorem exists_append_of_mem_blocks {n : Nat} {xs : List Lexeme} {b : Block} (h : b ∈ blocks n xs) :
    ∃ front x back, xs = front ++ x :: back ∧
      b = x.block (n + Text.size (front.flatMap source)) := by
  induction xs generalizing n with
  | nil => simp [blocks] at h
  | cons x xs ih =>
    rcases List.mem_cons.1 h with rfl | h
    · exact ⟨[], x, xs, rfl, rfl⟩
    · obtain ⟨front, y, back, rfl, rfl⟩ := ih h
      refine ⟨x :: front, y, back, rfl, ?_⟩
      rw [List.flatMap_cons, Text.size_append, size, Nat.add_assoc]

/-- A literal text moves the tags behind it and is none of them. -/
theorem filter_blocks_literal (n : Nat) (text : Text) (xs : List Lexeme) :
    (blocks n (literal text :: xs)).filter Block.isTag
      = (blocks (n + text.size) xs).filter Block.isTag := rfl

/-- The front of a literal text can be taken off without touching a tag. -/
theorem Neat.drop_front {n : Nat} {xs : List Lexeme} {front back : Text}
    (h : Neat (literal (front ++ back) :: xs)) :
    ∃ ys, Neat ys ∧ ys.flatMap source = back ++ xs.flatMap source ∧
      (blocks (n + front.size) ys).filter Block.isTag
        = (blocks n (literal (front ++ back) :: xs)).filter Block.isTag := by
  have hxs : Neat xs := Neat.of_append_right (show Neat ([literal (front ++ back)] ++ xs) from h)
  cases back with
  | nil =>
    refine ⟨xs, hxs, rfl, ?_⟩
    rw [filter_blocks_literal, List.append_nil]
  | cons d back =>
    have hplain : Text.Plain (front ++ d :: back) := (h.valid _ (List.mem_cons_self ..)).1
    refine ⟨literal (d :: back) :: xs, ⟨?_, ?_⟩, rfl, ?_⟩
    · intro y hy
      rcases List.mem_cons.1 hy with rfl | hy
      · exact ⟨hplain.of_part (List.suffix_append _ _).isInfix, List.cons_ne_nil d back⟩
      · exact hxs.valid y hy
    · exact List.isChain_cons.2 (List.isChain_cons.1 h.apart)
    · rw [filter_blocks_literal, filter_blocks_literal, Text.size_append, Nat.add_assoc]

/-- A line in front that holds no character of a delimiter can be taken off too. -/
theorem Neat.drop_bare {n : Nat} {xs : List Lexeme} {line rest : Text} (h : Neat xs)
    (hsource : xs.flatMap source = line ++ rest) (hline : line.Bare) :
    ∃ ys, Neat ys ∧ ys.flatMap source = rest ∧
      (blocks (n + line.size) ys).filter Block.isTag = (blocks n xs).filter Block.isTag := by
  -- A tag cannot be at the front, as the line does not even hold a character of an opening; so there is
  -- a literal text, which ends in the line, with the line, or behind it.
  cases xs with
  | nil =>
    obtain ⟨rfl, rfl⟩ := List.append_eq_nil_iff.1 hsource.symm
    exact ⟨[], h, rfl, rfl⟩
  | cons x xs =>
    rw [List.flatMap_cons] at hsource
    cases x with
    | tagged tag body =>
      -- The line would start like a tag.
      have hhead := Text.head?_of_opening_prefix
        (opening_prefix_tagged tag body (xs.flatMap source))
      cases line with
      | nil => exact ⟨_, h, hsource, rfl⟩
      | cons c line =>
        rw [hsource] at hhead
        obtain rfl : c = '<' := Option.some.inj hhead
        exact absurd rfl (hline '<' (List.mem_cons_self ..)).1
    | literal text =>
      change text ++ xs.flatMap source = line ++ rest at hsource
      rcases List.append_eq_append_iff.1 hsource with ⟨more, rfl, hrest⟩ | ⟨more, rfl, rfl⟩
      · -- The literal text ends within the line, so it ends where the line does.
        cases more with
        | nil =>
          have hfront : Neat (literal (text ++ []) :: xs) := by rwa [List.append_nil]
          obtain ⟨ys, hys, hsource', hfilter⟩ := hfront.drop_front (n := n)
          rw [List.append_nil] at hfilter ⊢
          exact ⟨ys, hys, hsource'.trans hrest, hfilter⟩
        | cons d more =>
          rcases h.after_literal with hnil | hopening
          · simp [hnil] at hrest
          · rw [hrest] at hopening
            obtain rfl : d = '<' := Option.some.inj (Text.head?_of_opening_prefix hopening)
            exact absurd rfl (hline '<' (List.mem_append_right _ (List.mem_cons_self ..))).1
      · -- The line is the front of the literal text.
        exact h.drop_front

end Lexeme
end Templating
