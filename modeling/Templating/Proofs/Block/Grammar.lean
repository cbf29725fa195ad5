import Templating.Block.Lexeme
import Templating.Proofs.Text.Delimiters

/-!
# What the grammar of any tags reads

A text begins with a lexeme of a grammar or it is at fault, and in both cases in one way only.  This
holds of the grammar of any tags, whether code is among them or not, and even of the one without tags.

## What is here

* `Grammar.Longest` is the tag that a text starts with, `Grammar.match?_window_eq_some_iff` says that it
  is the one that is found.
* `Lexeme.Begins` is the lexeme that a text begins with, `Lexeme.Faulty` the fault at its front.
* `Lexeme.next_eq_ok_iff` and `Lexeme.next_eq_error_iff` say that those are what is read.
-/

set_option autoImplicit false

namespace Templating

/-! ## The tag at the front of a text

Tags are tried one after the other, longer openings first, on a window of the text that is as long as
the longest opening.  So a tag is never found in place of one whose opening goes on from its own, and
the window is enough to tell.  Both are said once of any list of tags, since the grammar of a template
may be asked for some kinds only. -/

namespace Grammar

/-- Of the tags of the grammar that the text starts with, this is the one with the longest opening. -/
structure Longest (g : Grammar) (t : Text) (tag : Tag) : Prop where
  mem : tag ∈ g.tags
  opening : tag.opening <+: t
  length_le : ∀ other ∈ g.tags, other.opening <+: t → other.opening.length ≤ tag.opening.length

/-- Longer openings are tried first. -/
def Sorted (g : Grammar) : Prop := g.tags.Pairwise fun a b => b.opening.length ≤ a.opening.length

/-- An opening is two characters and what tells its kind. -/
theorem length_opening (tag : Tag) : tag.opening.length = 2 + tag.suffix.size := by
  cases tag with
  | code => rfl
  | print => rfl
  | declaration => rfl
  | inclusion => rfl

/-- The kinds of tags that are asked for are put in that order. -/
theorem sorted_ofTags (tags : List Tag) : (ofTags tags).Sorted := by
  have hsorted : ((tags.eraseDups.mergeSort fun a b => b.suffix.size ≤ a.suffix.size).Pairwise
      fun a b => decide (b.suffix.size ≤ a.suffix.size) = true) := by
    refine List.pairwise_mergeSort (fun a b c hab hbc => ?_) (fun a b => ?_) _
    · simp only [decide_eq_true_eq] at *
      omega
    · simp only [Bool.or_eq_true, decide_eq_true_eq]
      omega
  refine hsorted.imp fun {a b} h => ?_
  rw [length_opening, length_opening]
  exact Nat.add_le_add_left (of_decide_eq_true h) 2

/-- What a text starts with is left of it when it is cut, if it is no longer than that. -/
theorem prefix_takeBytes {s t : Text} {n : Nat} (h : s <+: t) (hn : s.size ≤ n) :
    s <+: t.takeBytes n := by
  obtain ⟨rest, rfl⟩ := h
  induction s generalizing n with
  | nil => exact List.nil_prefix
  | cons c s ih =>
    rw [Text.size_cons] at hn
    rw [List.cons_append, Text.takeBytes, if_pos (by omega)]
    exact List.cons_prefix_cons.2 ⟨rfl, ih (by omega)⟩

/-- No opening is longer than the longest. -/
theorem size_opening_le {g : Grammar} {tag : Tag} (h : tag ∈ g.tags) :
    tag.opening.size ≤ g.maxOpening := by
  have hmem : tag.opening.size ∈ g.tags.map (·.opening.size) := List.mem_map_of_mem h
  rw [maxOpening]
  cases hmax : (g.tags.map (·.opening.size)).max? with
  | none =>
    rw [List.max?_eq_none_iff.1 hmax] at hmem
    cases hmem
  | some n => exact (List.max?_eq_some_iff.1 hmax).2 _ hmem

/-- A window shows the opening of every tag that the text starts with. -/
theorem opening_prefix_window_iff {g : Grammar} {t : Text} {tag : Tag} (h : tag ∈ g.tags) :
    tag.opening <+: g.window t ↔ tag.opening <+: t :=
  ⟨fun hwindow => hwindow.trans (Lexeme.takeBytes_prefix_text _ _),
    fun ht => prefix_takeBytes ht (size_opening_le h)⟩

/-- No tag is found exactly if the text starts with none. -/
theorem match?_window_eq_none_iff {g : Grammar} {t : Text} :
    g.match? (g.window t) = none ↔ ∀ tag ∈ g.tags, ¬ tag.opening <+: t := by
  rw [match?, List.find?_eq_none]
  refine forall₂_congr fun tag htag => ?_
  rw [List.isPrefixOf_iff_prefix, opening_prefix_window_iff htag]

/-- Where longer openings are tried first, the first one that fits is the longest. -/
theorem length_opening_le {tags : List Tag} {t : Text} {tag other : Tag}
    (hsorted : tags.Pairwise fun a b => b.opening.length ≤ a.opening.length)
    (h : tags.find? (fun tag => tag.opening.isPrefixOf t) = some tag) (hmem : other ∈ tags)
    (hother : other.opening <+: t) : other.opening.length ≤ tag.opening.length := by
  obtain ⟨-, front, back, rfl, hfront⟩ := List.find?_eq_some_iff_append.1 h
  rcases List.mem_append.1 hmem with hmem | hmem
  · have hno := hfront other hmem
    rw [List.isPrefixOf_iff_prefix.2 hother] at hno
    simp at hno
  · rcases List.mem_cons.1 hmem with rfl | hmem
    · exact Nat.le_refl _
    · exact (List.pairwise_cons.1 (List.pairwise_append.1 hsorted).2.1).1 other hmem

/-- Two tags that a text starts with are the same if their openings are as long as each other. -/
theorem eq_of_opening_prefix {t : Text} {tag other : Tag} (h : tag.opening <+: t)
    (h' : other.opening <+: t) (hlength : tag.opening.length = other.opening.length) :
    tag = other := by
  have hopening := (List.prefix_of_prefix_length_le h h' (Nat.le_of_eq hlength)).eq_of_length hlength
  revert hopening
  cases tag <;> cases other <;> decide

/-- All openings begin in the same way. -/
theorem Longest.outerOpening_prefix {g : Grammar} {t : Text} {tag : Tag} (h : g.Longest t tag) :
    outerOpening <+: t := (List.prefix_append _ _).trans h.opening

/-- There is one longest tag at most. -/
theorem Longest.eq {g : Grammar} {t : Text} {tag other : Tag} (h : g.Longest t tag)
    (h' : g.Longest t other) : tag = other :=
  eq_of_opening_prefix h.opening h'.opening (Nat.le_antisymm (h'.length_le tag h.mem h.opening)
    (h.length_le other h'.mem h'.opening))

/-- The tag that is found is the longest one, and no other part of the text decides on it than its
window. -/
theorem match?_window_eq_some_iff {g : Grammar} (hg : g.Sorted) {t : Text} {tag : Tag} :
    g.match? (g.window t) = some tag ↔ g.Longest t tag := by
  have hfound {tag : Tag} (h : g.match? (g.window t) = some tag) : g.Longest t tag := by
    obtain ⟨hmem, hopening⟩ := match?_eq_some h
    refine ⟨hmem, (opening_prefix_window_iff hmem).1 hopening, fun other hother ht => ?_⟩
    exact length_opening_le hg h hother ((opening_prefix_window_iff hother).2 ht)
  refine ⟨hfound, fun h => ?_⟩
  cases hmatch : g.match? (g.window t) with
  | none => exact absurd h.opening (match?_window_eq_none_iff.1 hmatch tag h.mem)
  | some other => rw [h.eq (hfound hmatch)]

end Grammar

/-! ## The lexeme at the front of a text

What is at the front of a text is said in two relations, with the lexemes in one and the faults in the
other, and without any mention of the order in which things are looked for.  Each of their cases makes
the reader come to it.  And a text that is not empty is in one of the cases (`begins_or_faulty`).  So
the reader comes to a lexeme or a fault only where the relations say so. -/

namespace Lexeme

/-- The text begins with the lexeme, and `rest` follows it.  A literal text goes up to the next tag or
to the end; a tag goes up to the first closing delimiter, and code cannot start like a directive. -/
inductive Begins (g : Grammar) (t : Text) : Lexeme → Text → Prop
  | literal {text rest : Text} (ht : t = text ++ rest) (hplain : text.Plain) (hne : text ≠ [])
      (hrest : rest = [] ∨ outerOpening <+: rest) : Begins g t (.literal text) rest
  | tagged {tag : Tag} {body rest : Text} (htag : g.Longest t tag)
      (ht : t = tag.opening ++ (body ++ outerClosing ++ rest)) (hbody : ¬ outerClosing <:+: body)
      (hcode : tag = .code → body.head? ≠ some '@') : Begins g t (.tagged tag body) rest

/-- The longest part at the front of a text that has at most `n` bytes. -/
structure Window (n : Nat) (t window : Text) : Prop where
  isPrefix : window <+: t
  size_le : window.size ≤ n
  longest : ∀ front : Text, front <+: t → front.size ≤ n → front.length ≤ window.length

/-- The text is at fault at its front: it closes a tag before it opens one, or it opens a tag of no
known kind, one that nothing closes, or code that starts like a directive. -/
inductive Faulty (g : Grammar) (t : Text) : Fault → Prop
  /-- A closing delimiter comes first. -/
  | unopened {front rest : Text} (ht : t = front ++ outerClosing ++ rest)
      (hfirst : ¬ outerClosing <:+: front) (hopening : ¬ outerOpening <:+: front ++ outerClosing) :
      Faulty g t ⟨.unopened, ⟨front.size, front.size + outerClosing.size⟩⟩
  /-- An opening of no known kind is quoted as far as an opening can go. -/
  | unrecognized {window : Text} (hopening : outerOpening <+: t)
      (hnone : ∀ tag ∈ g.tags, ¬ tag.opening <+: t) (hwindow : Window g.maxOpening t window) :
      Faulty g t ⟨.unrecognized window, ⟨0, window.size⟩⟩
  | unclosed {tag : Tag} {inside : Text} (htag : g.Longest t tag) (ht : t = tag.opening ++ inside)
      (hclosing : ¬ outerClosing <:+: inside) :
      Faulty g t ⟨.unclosed outerClosing, ⟨0, tag.opening.size⟩⟩
  | directive {body rest name : Text} (htag : g.Longest t .code)
      (ht : t = outerOpening ++ (body ++ outerClosing ++ rest)) (hbody : ¬ outerClosing <:+: body)
      (hat : body.head? = some '@')
      (hname : name = outerOpening ++ body.takeWhile fun c => !Text.isBlank c) :
      Faulty g t ⟨.unrecognized name, ⟨0, name.size⟩⟩

variable {g : Grammar} {t rest : Text} {x : Lexeme} {f : Fault}

/-! ### Before the first tag

The text up to the first opening is a literal text if it has no closing.  If it has one, that is a
fault, though the closing may share its percent sign with the opening; so the closing is looked for in
that text alone. -/

/-- A text is what it starts with before its first tag, and nothing or that tag. -/
theorem lead_cases (t : Text) : ∃ rest, t = lead t ++ rest ∧ ¬ outerOpening <:+: lead t ∧
    (rest = [] ∨ outerOpening <+: rest) := by
  cases hcut : Text.cut? outerOpening t with
  | none =>
    have hlead : lead t = t := by rw [lead, hcut]
    rw [hlead]
    exact ⟨[], (List.append_nil t).symm, Text.cut?_eq_none_iff.1 hcut, .inl rfl⟩
  | some parts =>
    obtain ⟨before, after⟩ := parts
    have hlead : lead t = before := by rw [lead, hcut]
    have ht := Text.cut?_eq_some hcut
    rw [List.append_assoc] at ht
    rw [hlead]
    exact ⟨_, ht, Text.not_infix_of_cut? (by decide) hcut, .inr (List.prefix_append _ _)⟩

/-- A text without an opening in front of one is what comes before it. -/
theorem lead_append {text rest : Text} (h : ¬ outerOpening <:+: text)
    (hrest : rest = [] ∨ outerOpening <+: rest) : lead (text ++ rest) = text := by
  rcases hrest with rfl | ⟨after, rfl⟩
  · rw [List.append_nil, lead, Text.cut?_eq_none_iff.2 h]
  · have hcut : Text.cut? outerOpening (text ++ outerOpening ++ after) = some (text, after) :=
      Text.cut?_pair (by decide) h
    rw [← List.append_assoc, lead, hcut]

/-- Such a text can be taken off the front, unless an opening lies across its end. -/
theorem lead_append_left {text : Text} (h : ¬ outerOpening <:+: text)
    (hlast : text.getLast? ≠ some '<') (t : Text) : lead (text ++ t) = text ++ lead t := by
  obtain ⟨rest, ht, hlead, hrest⟩ := lead_cases t
  have hnone : ¬ outerOpening <:+: text ++ lead t := by
    rw [outerOpening, Text.infix_pair_append]
    rintro (hinside | hinside | ⟨hacross, -⟩)
    · exact h hinside
    · exact hlead hinside
    · exact hlast hacross
  calc lead (text ++ t) = lead (text ++ lead t ++ rest) := by rw [List.append_assoc, ← ht]
    _ = text ++ lead t := lead_append hnone hrest

/-- Nothing comes before an opening at the front. -/
theorem lead_of_opening (h : outerOpening <+: t) : lead t = [] :=
  lead_append Text.plain_nil.opening (.inr h)

/-- A closing delimiter is found before the first tag if no opening delimiter begins in front of it. -/
theorem exists_cut?_lead_iff {front : Text} :
    (∃ after, Text.cut? outerClosing (lead t) = some (front, after)) ↔
      (∃ rest, t = front ++ outerClosing ++ rest) ∧ ¬ outerClosing <:+: front ∧
        ¬ outerOpening <:+: front ++ outerClosing := by
  constructor
  · rintro ⟨after, hcut⟩
    obtain ⟨rest, ht, hopening, -⟩ := lead_cases t
    have hlead := Text.cut?_eq_some hcut
    refine ⟨⟨after ++ rest, ?_⟩, Text.not_infix_of_cut? (by decide) hcut, fun h => hopening ?_⟩
    · rw [← List.append_assoc, ← hlead]
      exact ht
    · rw [hlead]
      exact h.trans (List.prefix_append _ _).isInfix
  · rintro ⟨⟨rest, rfl⟩, hfirst, hopening⟩
    have hlast : (front ++ outerClosing).getLast? ≠ some '<' := by simp [outerClosing]
    rw [lead_append_left hopening hlast]
    exact ⟨lead rest, Text.cut?_pair (by decide) hfirst⟩

/-- Behind an opening a tag is read. -/
theorem next_of_opening (h : outerOpening <+: t) : next g t = nextTag g t := by
  have hnone : Text.cut? outerClosing [] = none := rfl
  rw [next, lead_of_opening h, hnone]
  rfl

/-! ### Windows

A window is cut to a number of bytes and does not end inside a character, so it can be shorter than
that. -/

/-- What is cut has no more bytes than were asked for. -/
theorem size_takeBytes_le (n : Nat) (t : Text) : Text.size (t.takeBytes n) ≤ n := by
  induction t generalizing n with
  | nil => exact Nat.zero_le n
  | cons c t ih =>
    rw [Text.takeBytes]
    split
    · next hc =>
      have hrest := ih (n - c.utf8Size)
      rw [Text.size_cons]
      omega
    · exact Nat.zero_le n

/-- And there is no longer front of the text of which that is true. -/
theorem window_takeBytes (n : Nat) (t : Text) : Window n t (t.takeBytes n) :=
  ⟨takeBytes_prefix_text n t, size_takeBytes_le n t,
    fun _ hfront hsize => (Grammar.prefix_takeBytes hfront hsize).length_le⟩

/-- So there is one window of each size. -/
theorem Window.eq {n : Nat} {window other : Text} (h : Window n t window) (h' : Window n t other) :
    window = other := by
  have hle := h'.longest window h.isPrefix h.size_le
  have hge := h.longest other h'.isPrefix h'.size_le
  exact (List.prefix_of_prefix_length_le h.isPrefix h'.isPrefix hle).eq_of_length
    (Nat.le_antisymm hle hge)

/-! ### What is read

The two relations and the reader are brought together here: first each case on its own, then that there
is no other. -/

theorem isDirective_eq_true_iff {tag : Tag} {body : Text} :
    isDirective tag body = true ↔ tag = .code ∧ body.head? = some '@' := by
  rw [isDirective, Bool.and_eq_true, decide_eq_true_eq, decide_eq_true_eq]

/-- Once its kind is known, a tag goes up to the first closing delimiter, and then it is checked that it
is not code that looks like a directive. -/
theorem next_of_longest (hg : g.Sorted) {tag : Tag} {inside : Text} (htag : g.Longest t tag)
    (ht : t = tag.opening ++ inside) :
    next g t = match Text.cut? outerClosing inside with
      | none => .error ⟨.unclosed outerClosing, ⟨0, tag.opening.size⟩⟩
      | some (body, rest) =>
        if isDirective tag body then
          let name := outerOpening ++ body.takeWhile fun c => !Text.isBlank c
          .error ⟨.unrecognized name, ⟨0, name.size⟩⟩
        else .ok (tagged tag body, rest) := by
  rw [next_of_opening htag.outerOpening_prefix, nextTag, (Grammar.match?_window_eq_some_iff hg).2 htag]
  dsimp only
  rw [ht, List.drop_left]
  rfl

/-- Where the text begins with a lexeme, that is what is read. -/
theorem next_of_begins (hg : g.Sorted) (h : Begins g t x rest) : next g t = .ok (x, rest) := by
  cases h with
  | literal ht hplain hne hrest =>
    rw [next, ht, lead_append hplain.opening hrest, Text.cut?_eq_none_iff.2 hplain.closing]
    dsimp only
    rw [if_neg hne, List.drop_left]
  | @tagged tag body _ htag ht hbody hcode =>
    have hcut : Text.cut? outerClosing (body ++ outerClosing ++ rest) = some (body, rest) :=
      Text.cut?_pair (by decide) hbody
    have hdirective : ¬ isDirective tag body = true := fun h =>
      hcode (isDirective_eq_true_iff.1 h).1 (isDirective_eq_true_iff.1 h).2
    rw [next_of_longest hg htag ht, hcut]
    exact if_neg hdirective

/-- Where it is at fault, that is what is reported. -/
theorem next_of_faulty (hg : g.Sorted) (h : Faulty g t f) : next g t = .error f := by
  cases h with
  | unopened ht hfirst hopening =>
    obtain ⟨after, hcut⟩ := exists_cut?_lead_iff.2 ⟨⟨_, ht⟩, hfirst, hopening⟩
    rw [next, hcut]
  | unrecognized hopening hnone hwindow =>
    rw [next_of_opening hopening, nextTag, Grammar.match?_window_eq_none_iff.2 hnone,
      hwindow.eq (window_takeBytes _ _)]
    rfl
  | unclosed htag ht hclosing =>
    rw [next_of_longest hg htag ht, Text.cut?_eq_none_iff.2 hclosing]
  | @directive body rest _ htag ht hbody hat hname =>
    have hcut : Text.cut? outerClosing (body ++ outerClosing ++ rest) = some (body, rest) :=
      Text.cut?_pair (by decide) hbody
    rw [next_of_longest hg htag ht, hcut, hname]
    exact if_pos (isDirective_eq_true_iff.2 ⟨rfl, hat⟩)

/-- This is so at an opening, where only the tag has to be looked at. -/
theorem begins_or_faulty_of_opening (hg : g.Sorted) (h : outerOpening <+: t) :
    (∃ x rest, Begins g t x rest) ∨ ∃ f, Faulty g t f := by
  cases hmatch : g.match? (g.window t) with
  | none =>
    exact .inr ⟨_, .unrecognized h (Grammar.match?_window_eq_none_iff.1 hmatch)
      (window_takeBytes _ _)⟩
  | some tag =>
    have htag := (Grammar.match?_window_eq_some_iff hg).1 hmatch
    obtain ⟨inside, ht⟩ := htag.opening
    cases hcut : Text.cut? outerClosing inside with
    | none => exact .inr ⟨_, .unclosed htag ht.symm (Text.cut?_eq_none_iff.1 hcut)⟩
    | some parts =>
      obtain ⟨body, rest⟩ := parts
      have hbody : ¬ outerClosing <:+: body := Text.not_infix_of_cut? (by decide) hcut
      rw [Text.cut?_eq_some hcut] at ht
      by_cases hdirective : tag = .code ∧ body.head? = some '@'
      · obtain ⟨rfl, hat⟩ := hdirective
        exact .inr ⟨_, .directive htag ht.symm hbody hat rfl⟩
      · exact .inl ⟨_, rest, .tagged htag ht.symm hbody fun hcode hat => hdirective ⟨hcode, hat⟩⟩

/-- A text begins with a lexeme or is at fault. -/
theorem begins_or_faulty (hg : g.Sorted) (hne : t ≠ []) :
    (∃ x rest, Begins g t x rest) ∨ ∃ f, Faulty g t f := by
  cases hclosing : Text.cut? outerClosing (lead t) with
  | some parts =>
    obtain ⟨front, after⟩ := parts
    obtain ⟨⟨rest, ht⟩, hfirst, hopening⟩ := exists_cut?_lead_iff.1 ⟨after, hclosing⟩
    exact .inr ⟨_, .unopened ht hfirst hopening⟩
  | none =>
    obtain ⟨rest, ht, hopening, hrest⟩ := lead_cases t
    by_cases hlead : lead t = []
    · rw [hlead, List.nil_append] at ht
      subst ht
      exact begins_or_faulty_of_opening hg (hrest.resolve_left hne)
    · exact .inl ⟨_, rest, .literal ht ⟨hopening, Text.cut?_eq_none_iff.1 hclosing⟩ hlead hrest⟩

/-- Nothing is read of an empty text. -/
theorem ne_nil_of_next (h : next g t = .ok (x, rest)) : t ≠ [] := by
  rintro rfl
  obtain ⟨heq, hsource⟩ := next_eq h
  exact hsource (List.append_eq_nil_iff.1 heq.symm).1

/-- A text begins with the lexeme that is read. -/
theorem next_eq_ok_iff (hg : g.Sorted) : next g t = .ok (x, rest) ↔ Begins g t x rest := by
  refine ⟨fun h => ?_, next_of_begins hg⟩
  rcases begins_or_faulty hg (ne_nil_of_next h) with ⟨x', rest', hbegins⟩ | ⟨f, hfaulty⟩
  · rw [next_of_begins hg hbegins] at h
    cases h
    exact hbegins
  · rw [next_of_faulty hg hfaulty] at h
    cases h

/-- The fault that is reported is the one at the front of the text. -/
theorem next_eq_error_iff (hg : g.Sorted) (hne : t ≠ []) :
    next g t = .error f ↔ Faulty g t f := by
  refine ⟨fun h => ?_, next_of_faulty hg⟩
  rcases begins_or_faulty hg hne with ⟨x, rest, hbegins⟩ | ⟨f', hfaulty⟩
  · rw [next_of_begins hg hbegins] at h
    cases h
  · rw [next_of_faulty hg hfaulty] at h
    cases h
    exact hfaulty

end Lexeme
end Templating
