import Templating.Proofs.Include.Fault

/-!
# A file, cut at its tags

The version directive of a file, its include tags and the text between them follow each other through
the file.  So expansion copies what is outside of them once, and drops nothing of it.

## What is here

* `Text.Partition` says that spans cut a text into parts; it follows from `Span.Cover`.
* `IncludeTag.gaps` are the spans that expansion copies, and `IncludeTag.parts` the same with the tags
  between them; `Piece.isOwn` tells the pieces copied from the file itself from all others.
* `Directive.Refused` and `Directive.Covers` say how the line of a directive is read.
* `Directive.partition_source` is the conclusion.
-/

set_option autoImplicit false

namespace Templating

/-! ## Spans that follow each other

Spans that follow each other without a gap are easy to build up, one at a time, and they are what a file
is cut into.  That every byte is in one of them only, and that their texts make up the whole, follows
from that alone. -/

/-- Whether an offset lies in a span. -/
def Span.holds (i : Nat) (span : Span) : Bool := span.start ≤ i && i < span.stop

/-- The spans follow each other from one offset to another. -/
inductive Span.Cover : Nat → List Span → Nat → Prop
  | nil {n : Nat} : Cover n [] n
  | cons {n m stop : Nat} {spans : List Span} (hle : n ≤ m) (hrest : Cover m spans stop) :
      Cover n (⟨n, m⟩ :: spans) stop

/-- The spans cut a text into parts: they stand in order and end between characters, every byte of
the text is in one of them only, and what they have of the text makes it up. -/
structure Text.Partition (t : Text) (spans : List Span) : Prop where
  order : spans.Pairwise fun a b => a.stop ≤ b.start
  hasSpan : ∀ span ∈ spans, t.HasSpan span
  once : ∀ i < t.size, spans.countP (Span.holds i) = 1
  slices : spans.flatMap t.slice = t

namespace Span.Cover

variable {n stop : Nat} {spans : List Span}

/-- Spans lead forward. -/
theorem le (h : Cover n spans stop) : n ≤ stop := by
  induction h with
  | nil => exact Nat.le_refl _
  | cons hle _ ih => exact Nat.le_trans hle ih

/-- All of them begin behind the first offset. -/
theorem start_le (h : Cover n spans stop) : ∀ span ∈ spans, n ≤ span.start := by
  induction h with
  | nil => simp
  | cons hle _ ih =>
    exact List.forall_mem_cons.2 ⟨Nat.le_refl _, fun span hspan => Nat.le_trans hle (ih span hspan)⟩

/-- They are in order. -/
theorem pairwise (h : Cover n spans stop) : spans.Pairwise fun a b => a.stop ≤ b.start := by
  induction h with
  | nil => exact .nil
  | cons _ hrest ih => exact .cons (fun span hspan => hrest.start_le span hspan) ih

/-- A byte between the two offsets is in one of them, and any other in none. -/
theorem countP (h : Cover n spans stop) (i : Nat) :
    spans.countP (Span.holds i) = if n ≤ i ∧ i < stop then 1 else 0 := by
  induction h with
  | @nil n =>
    rw [List.countP_nil, if_neg (by omega)]
  | @cons n m stop spans hle hrest ih =>
    have hstop := hrest.le
    have hholds : Span.holds i ⟨n, m⟩ = true ↔ n ≤ i ∧ i < m := by simp [Span.holds]
    rw [List.countP_cons, ih]
    by_cases hi : n ≤ i ∧ i < m
    · rw [if_neg (by omega), if_pos (hholds.2 hi), if_pos (by omega)]
    · rw [if_neg (c := Span.holds i ⟨n, m⟩ = true) (fun h => hi (hholds.1 h)), Nat.add_zero]
      exact if_congr (by omega) rfl rfl

/-- What they have of a text is all of it from the first offset on. -/
theorem slices {t front rest : Text} (h : Cover n spans stop)
    (hspans : ∀ span ∈ spans, t.HasSpan span) (ht : t = front ++ rest) (hn : n = front.size)
    (hstop : stop = t.size) : spans.flatMap t.slice = rest := by
  induction h generalizing front rest with
  | nil =>
    rw [hstop, ht, Text.size_append] at hn
    exact (Text.size_eq_zero_iff.1 (by omega)).symm
  | cons _ _ ih =>
    obtain ⟨a, b, c, htext, hspan⟩ := hspans _ (List.mem_cons_self ..)
    obtain ⟨hstart, rfl⟩ := Span.mk.inj hspan
    rw [ht, List.append_assoc] at htext
    obtain ⟨rfl, rfl⟩ := Text.append_inj_of_size htext (hn.symm.trans hstart)
    rw [← List.append_assoc] at ht
    rw [List.flatMap_cons, Text.slice_eq ht hn rfl,
      ih (fun span hmem => hspans span (List.mem_cons_of_mem _ hmem)) ht
        (Text.size_append front b).symm hstop]

/-- So they cut the text into parts if they reach from its front to its end. -/
theorem partition {t : Text} (h : Cover 0 spans t.size) (hspans : ∀ span ∈ spans, t.HasSpan span) :
    t.Partition spans := by
  refine ⟨h.pairwise, hspans, fun i hi => ?_, h.slices hspans (List.nil_append t).symm rfl rfl⟩
  rw [h.countP, if_pos ⟨Nat.zero_le i, hi⟩]

end Span.Cover

/-! ## The spans of a file

The gaps between the tags may be empty, where a tag follows another one at once or stands at the very
end.  They are kept all the same, so that every tag has a gap on either side. -/

namespace IncludeTag

/-- What a file has between its tags, from one offset to another. -/
def gaps (cursor stop : Nat) : List IncludeTag → List Span
  | [] => [⟨cursor, stop⟩]
  | tag :: tags => ⟨cursor, tag.span.start⟩ :: gaps tag.span.stop stop tags

/-- What a file has between its tags, and the tags. -/
def parts (cursor stop : Nat) : List IncludeTag → List Span
  | [] => [⟨cursor, stop⟩]
  | tag :: tags => ⟨cursor, tag.span.start⟩ :: tag.span :: parts tag.span.stop stop tags

/-- The tags that are found and the gaps between them follow each other. -/
theorem Found.cover {path : Path} {n : Nat} {t : Text} {tags : List IncludeTag}
    (h : Found path n t tags) : Span.Cover n (parts n (n + t.size) tags) (n + t.size) := by
  induction h with
  | nil => exact .cons (Nat.le_add_right _ _) .nil
  | @cons n lead body rest _ _ _ _ _ _ ih =>
    generalize Tag.inclusion.opening ++ body ++ Tag.inclusion.closing = tagText at ih ⊢
    have hstop : n + Text.size (lead ++ (tagText ++ rest))
        = n + lead.size + tagText.size + rest.size := by
      rw [Text.size_append, Text.size_append]
      omega
    rw [hstop]
    exact .cons (Nat.le_add_right _ _) (.cons (Nat.le_add_right _ _) ih)

/-- They begin and end between characters. -/
theorem Found.hasSpan {path : Path} {n : Nat} {t : Text} {tags : List IncludeTag}
    (h : Found path n t tags) {text front : Text} (htext : text = front ++ t) (hn : n = front.size) :
    ∀ span ∈ parts n text.size tags, text.HasSpan span := by
  induction h generalizing front with
  | nil =>
    refine List.forall_mem_singleton.2 ⟨front, _, [], by rw [htext, List.append_nil], ?_⟩
    rw [htext, Text.size_append, hn]
  | @cons n lead body rest _ _ _ _ _ _ ih =>
    generalize Tag.inclusion.opening ++ body ++ Tag.inclusion.closing = tagText at ih htext ⊢
    subst hn
    refine List.forall_mem_cons.2 ⟨?_, List.forall_mem_cons.2 ⟨?_, ?_⟩⟩
    · exact ⟨front, lead, tagText ++ rest, by rw [htext, List.append_assoc], rfl⟩
    · exact ⟨front ++ lead, tagText, rest, by rw [htext]; simp, by rw [Text.size_append]⟩
    · have htext : text = front ++ lead ++ tagText ++ rest := by rw [htext]; simp
      exact ih htext (by rw [Text.size_append, Text.size_append])

end IncludeTag

/-! ## What expansion copies

An expansion has pieces of three kinds: copied from the file itself, made up at a tag, and copied from
other files, which have a tag that they came through.  Only the first kind counts here, and it is what
`Piece.isOwn` tells. -/

namespace Piece

/-- Whether a piece is a copy of text of the file itself, not of one that it includes. -/
def isOwn (p : Piece) : Bool := !p.generated && p.sites = []

/-- What is copied is of the file itself. -/
theorem filter_isOwn_copied (file : SourceFile) (span : Span) :
    (copied file span).filter isOwn = copied file span := by
  refine List.filter_eq_self.2 fun p hp => ?_
  rw [copied] at hp
  split at hp
  · cases hp
  · obtain rfl := List.mem_singleton.1 hp
    rfl

/-- What is made up is not. -/
theorem isOwn_of_mem_generatedAt {file : SourceFile} {span : Span} {t : Text} {p : Piece}
    (hp : p ∈ generatedAt file span t) : p.isOwn = false := by
  rw [generatedAt] at hp
  split at hp
  · cases hp
  · obtain rfl := List.mem_singleton.1 hp
    rfl

/-- Nor is anything that comes in the place of a tag. -/
theorem filter_isOwn_replacement (tag : IncludeTag) (file : SourceFile) (d : Document) :
    (tag.replacement file d).filter isOwn = [] := by
  refine List.filter_eq_nil_iff.2 fun p hp => ?_
  rw [Bool.not_eq_true]
  simp only [IncludeTag.replacement, List.mem_append] at hp
  rcases hp with ((hp | hp) | hp) | hp
  · exact isOwn_of_mem_generatedAt hp
  · obtain ⟨q, -, rfl⟩ := List.mem_map.1 hp
    simp [isOwn, within]
  · exact isOwn_of_mem_generatedAt hp
  · exact isOwn_of_mem_generatedAt hp

end Piece

/-- An expansion has the gaps between the tags of a file, in order, and nothing else of the file. -/
theorem Expander.filter_isOwn_of_expandTags {s : Surroundings} {stack : List Path}
    {file : SourceFile} {cursor : Nat} {tags : List IncludeTag} {x x' : Expander}
    {pieces : List Piece} (h : expandTags s stack file cursor tags x = (.ok pieces, x')) :
    pieces.filter Piece.isOwn
      = (IncludeTag.gaps cursor file.text.size tags).flatMap (Piece.copied file) := by
  induction tags generalizing cursor x pieces with
  | nil =>
    rw [expandTags] at h
    cases h
    rw [Piece.filter_isOwn_copied, IncludeTag.gaps, List.flatMap_singleton]
  | cons tag tags ih =>
    rw [expandTags] at h
    split at h
    · cases h
    · next d x₁ htag =>
      split at h
      · cases h
      · next rest x₂ hrest =>
        cases h
        rw [List.filter_append, List.filter_append, Piece.filter_isOwn_copied,
          Piece.filter_isOwn_replacement, List.append_nil, ih hrest, IncludeTag.gaps,
          List.flatMap_cons]

/-! ## The line of the directive

A text that begins like a directive has one, or it is refused; there is no third way, and no other text
has one.  The version is what stands on the rest of the line, without the blanks round it. -/

namespace Directive

/-- The rest `line` of the first line is no version.  The error points at it without the blanks round
it, and it is on line 1. -/
def Refused (path : Path) (front line : Text) (e : BuildError) : Prop :=
  ∃ cause before after, Version.parseTools (Text.trim line) = .error cause ∧
    line = before ++ Text.trim line ++ after ∧ (∀ c ∈ before ++ after, Text.isBlank c = true) ∧
    e = .invalidToolsVersionNumber (Text.trim line) cause
      ⟨path, 1, (front ++ before).size, (front ++ before ++ Text.trim line).size⟩

/-- A directive is the first line of a text with its line break, if it has one, and no delimiter is
in it. -/
def Covers (text : Text) (directive : Directive) : Prop :=
  ∃ line rest, text = line ++ rest ∧ directive.span = ⟨0, line.size⟩ ∧
    ((rest = [] ∧ '\n' ∉ line) ∨ ∃ start, line = start ++ ['\n'] ∧ '\n' ∉ start) ∧
    ¬ outerOpening <:+: line ∧ ¬ outerClosing <:+: line

variable {path : Path} {text front value : Text}

/-- The error that such a text is refused with, at its place. -/
theorem refused_locate {cause : Version.ParseError} (hlead : Lead front)
    (htext : text = front ++ value)
    (hcause : Version.parseTools (Text.trim (value.takeWhile (· ≠ '\n'))) = .error cause) :
    Refused path front (value.takeWhile (· ≠ '\n')) (.invalidToolsVersionNumber
      (Text.trim (value.takeWhile (· ≠ '\n'))) cause ((Document.ofSource path text).locate
        ⟨front.size + Text.size ((value.takeWhile (· ≠ '\n')).takeWhile Text.isBlank),
          front.size + Text.size ((value.takeWhile (· ≠ '\n')).takeWhile Text.isBlank)
            + (Text.trim (value.takeWhile (· ≠ '\n'))).size⟩)) := by
  have hbreak := break_not_mem_takeWhile value
  generalize hvalue : value.takeWhile (· ≠ '\n') = line at hcause hbreak ⊢
  -- The rest of the line is cut into the blanks in front, the version and the blanks behind.
  obtain ⟨after, below, hline, hafter, htrimmed⟩ := Text.exists_trimmed htext hvalue
  have hbefore : ∀ c ∈ line.takeWhile Text.isBlank, Text.isBlank c = true :=
    fun c hc => List.mem_takeWhile_imp hc
  generalize line.takeWhile Text.isBlank = before at hline hbefore htrimmed ⊢
  have hcount : List.count '\n' (front ++ before) = 0 := by
    refine List.count_eq_zero.2 fun h => ?_
    rcases List.mem_append.1 h with h | h
    · exact hlead.break_not_mem h
    · exact hbreak (by rw [hline]; simp [h])
  refine ⟨cause, before, after, hcause, hline, fun c hc => ?_, ?_⟩
  · exact (List.mem_append.1 hc).elim (hbefore c) (hafter c)
  · have hspan : text.HasSpan ⟨(front ++ before).size, (front ++ before ++ Text.trim line).size⟩ :=
      ⟨_, _, _, htrimmed, by rw [Text.size_append _ (Text.trim line)]⟩
    rw [List.append_assoc (front ++ before)] at htrimmed
    have hlineOf := SourceFile.lineOf_append (f := ⟨path, text⟩) htrimmed
    rw [hcount] at hlineOf
    rw [← Text.size_append, ← Text.size_append, Document.locate_ofSource hspan, SourceFile.locate,
      hlineOf]

/-- With a version that can be read, the first line is a directive. -/
theorem covers_of_parseTools {version : Version} (hlead : Lead front) (htext : text = front ++ value)
    (hversion : Version.parseTools (Text.trim (value.takeWhile (· ≠ '\n'))) = .ok version) :
    Covers text ⟨version, 0, min (front.size + Text.size (value.takeWhile (· ≠ '\n')) + 1)
      text.size⟩ := by
  obtain ⟨line, rest, htext, hbare, hline, hend⟩ := exists_line hlead htext hversion
  exact ⟨line, rest, htext, congrArg (Span.mk 0) hline, hend, hbare.plain.opening,
    hbare.plain.closing⟩

/-- A text that begins like a directive has one, or is refused for its version. -/
theorem find?_of_lead (path : Path) (hlead : Lead front) (htext : text = front ++ value) :
    (∃ e, find? (.ofSource path text) = .error e ∧
      Refused path front (value.takeWhile (· ≠ '\n')) e) ∨
    ∃ directive, find? (.ofSource path text) = .ok (some directive) ∧
      Version.parseTools (Text.trim (value.takeWhile (· ≠ '\n'))) = .ok directive.version ∧
      Covers text directive := by
  have hvalue : value? (Document.ofSource path text).text = some value := by
    rw [Document.text_ofSource]
    exact value?_eq_some_iff.2 ⟨front, hlead, htext⟩
  have hsize : (Document.ofSource path text).size - value.size = front.size := by
    rw [Document.size, Document.text_ofSource, htext, Text.size_append, Nat.add_sub_cancel_right]
  have htotal : (Document.ofSource path text).size = text.size := by
    rw [Document.size, Document.text_ofSource]
  rw [find?, hvalue]
  dsimp only
  rw [hsize, htotal]
  cases hversion : Version.parseTools (Text.trim (value.takeWhile (· ≠ '\n'))) with
  | error cause => exact .inl ⟨_, rfl, refused_locate hlead htext hversion⟩
  | ok version => exact .inr ⟨_, rfl, rfl, covers_of_parseTools hlead htext hversion⟩

/-- A text has no directive if it does not begin like one. -/
theorem find?_eq_none_iff (path : Path) (text : Text) :
    find? (.ofSource path text) = .ok none ↔ ¬ Begins text := by
  constructor
  · rintro h ⟨front, hlead, value, htext⟩
    rcases find?_of_lead path hlead htext.symm with ⟨e, he, -⟩ | ⟨directive, hd, -⟩
    · rw [he] at h
      cases h
    · rw [hd] at h
      cases h
  · intro h
    rw [find?, Document.text_ofSource, value?_eq_none_iff.2 h]

/-! ## The whole file

The line of the directive is in front of all tags, so it is one more part. -/

/-- The directive, the tags and the text between them are a partition of the file. -/
theorem partition_of_findAll {directive : Option Directive} {tags : List IncludeTag}
    (hdirective : find? (.ofSource path text) = .ok directive)
    (htags : IncludeTag.findAll (.ofSource path text) = .ok tags) :
    text.Partition (⟨0, bodyStart directive⟩ ::
      IncludeTag.parts (bodyStart directive) text.size tags) := by
  obtain ⟨line, rest, htext, -, hbody, hfound⟩ := found_of_findAll hdirective htags
  rw [hbody]
  refine Span.Cover.partition (.cons (Nat.zero_le _) ?_) (List.forall_mem_cons.2 ⟨?_, ?_⟩)
  · have hcover := hfound.cover
    rwa [← Text.size_append, ← htext] at hcover
  · exact ⟨[], line, rest, htext, by rw [Text.size_nil, Nat.zero_add]⟩
  · exact hfound.hasSpan htext rfl

/-- **Every byte of a file is in its directive, in one of its include tags, or copied, and only
once.**  A text has a directive if it begins like one, and then the directive is its first line, without
a delimiter in it, unless the version cannot be read. -/
theorem partition_source (path : Path) (text : Text) :
    (find? (.ofSource path text) = .ok none ↔ ¬ Begins text) ∧
    (∀ front value, Lead front → text = front ++ value →
      (∃ e, find? (.ofSource path text) = .error e ∧
        Refused path front (value.takeWhile (· ≠ '\n')) e) ∨
      ∃ directive, find? (.ofSource path text) = .ok (some directive) ∧
        Version.parseTools (Text.trim (value.takeWhile (· ≠ '\n'))) = .ok directive.version ∧
        Covers text directive) ∧
    ∀ directive tags, find? (.ofSource path text) = .ok directive →
      IncludeTag.findAll (.ofSource path text) = .ok tags →
      text.Partition (⟨0, bodyStart directive⟩ ::
        IncludeTag.parts (bodyStart directive) text.size tags) ∧
      ∀ (s : Surroundings) (stack : List Path) (o : Outline) (x x' : Expander)
        (pieces : List Piece), Outline.ofText s.running path text = .ok o →
        Expander.expandTags s stack o.file o.start o.tags x = (.ok pieces, x') →
        pieces.filter Piece.isOwn
          = (IncludeTag.gaps (bodyStart directive) text.size tags).flatMap
            (Piece.copied ⟨path, text⟩) := by
  refine ⟨find?_eq_none_iff path text, fun front value hlead htext => find?_of_lead path hlead htext,
    fun directive tags hdirective htags => ⟨partition_of_findAll hdirective htags, ?_⟩⟩
  intro s stack o x x' pieces ho hexpand
  obtain ⟨directive', hdirective', -, htags', -, hfile, hstart⟩ := Outline.ofText_eq_ok ho
  obtain rfl := Except.ok.inj (hdirective.symm.trans hdirective')
  obtain rfl := Except.ok.inj (htags.symm.trans htags')
  rw [Expander.filter_isOwn_of_expandTags hexpand, hfile, hstart]

end Directive
end Templating
