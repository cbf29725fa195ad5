import Templating.Proofs.Block.Scan
import Templating.Proofs.Include.Nesting
import Templating.Proofs.Include.Trace

/-!
# Why a template has no program

There are three reasons: the template cannot be expanded, what it expands to cannot be scanned, or an
include tag is left in it.  Whichever it is, the error leads to the place in a file where it came up.

## What is here

* `Lexeme.hasSpan_of_fault` and `Scan.split`: where in a text a scan stops.
* `Program.eq_of_ofDocument` tells the reasons apart for an expanded template.
* `Generator.program_traced` says that every error of a build is traced.
-/

set_option autoImplicit false

namespace Templating

/-! ## Faults of a scan

A scan stops at a fault, which says what is to blame and where, counted from what was left of the text
there.  For an error in a document that is not enough: its span has to be one of the whole text, with
both ends between characters, and it has to begin before the end, as nothing can be looked up behind it.
So the text is split into what was read and the rest, and the span is moved from the rest to the text. -/

/-- The front of a text is a span of it. -/
theorem Text.hasSpan_of_prefix {s t : Text} (h : s <+: t) : t.HasSpan ⟨0, s.size⟩ := by
  obtain ⟨rest, rfl⟩ := h
  exact ⟨[], s, rest, rfl, by simp⟩

namespace Lexeme

/-- What is wrong with a tag is said of the front of the text: of the opening, or of the opening with
the word behind it that no tag has. -/
theorem hasSpan_of_nextTag {g : Grammar} {t : Text} {f : Fault} (h : nextTag g t = .error f) :
    t.HasSpan f.span ∧ f.span.start = 0 := by
  rw [nextTag] at h
  split at h
  · cases h
    exact ⟨Text.hasSpan_of_prefix (takeBytes_prefix_text _ _), rfl⟩
  · next tag hmatch =>
    have hopening := (Grammar.match?_eq_some hmatch).2.trans (takeBytes_prefix_text _ _)
    split at h
    · cases h
      exact ⟨Text.hasSpan_of_prefix hopening, rfl⟩
    · next body rest hcut =>
      split at h
      · -- Only the plain opening can be followed by what looks like another kind of tag.
        next hdirective =>
        cases h
        refine ⟨Text.hasSpan_of_prefix ?_, rfl⟩
        obtain ⟨inside, rfl⟩ := hopening
        rw [List.drop_left] at hcut
        obtain ⟨rfl, -⟩ : tag = .code ∧ body.head? = some '@' := by
          simpa [isDirective] using hdirective
        have hcode : Tag.code.opening = outerOpening := rfl
        rw [Text.cut?_eq_some hcut, hcode, List.append_assoc body]
        rw [List.prefix_append_right_inj]
        exact (List.takeWhile_prefix _).trans (List.prefix_append body _)
      · cases h

/-- What is to blame for a fault is a part of the text, and it begins before the end. -/
theorem hasSpan_of_fault {g : Grammar} {t : Text} {f : Fault} (hne : t ≠ [])
    (h : next g t = .error f) : t.HasSpan f.span ∧ f.span.start < t.size := by
  rw [next] at h
  split at h
  · next before after hcut =>
    cases h
    obtain ⟨more, hmore⟩ := lead_prefix_text t
    rw [Text.cut?_eq_some hcut] at hmore
    -- The closing that was not opened is in the lead of the text.
    refine ⟨⟨before, outerClosing, after ++ more, by simp [← hmore], rfl⟩, ?_⟩
    have hpos : 0 < outerClosing.size := by decide
    simp [← hmore]
    omega
  · split at h
    · obtain ⟨hspan, hstart⟩ := hasSpan_of_nextTag h
      rw [hstart]
      exact ⟨hspan, Text.size_pos hne⟩
    · cases h

end Lexeme

namespace Scan

/-- A text is what was read of it and a rest, and the fault, if there is one, is that of the rest. -/
theorem split (g : Grammar) (t : Text) :
    ∃ rest, t = (ofText g t).lexemes.flatMap Lexeme.source ++ rest ∧
      (∀ x ∈ (ofText g t).lexemes, x.source ≠ []) ∧
      ∀ f, (ofText g t).fault = some f → rest ≠ [] ∧ Lexeme.next g rest = .error f := by
  induction t using ofText_induct (g := g) with
  | finish => exact ⟨[], rfl, by simp, nofun⟩
  | fault t f hne hnext =>
    refine ⟨t, rfl, by simp, ?_⟩
    rintro _ ⟨⟩
    exact ⟨hne, hnext⟩
  | step t x rest hnext ih =>
    obtain ⟨rest', hrest, hsources, hfault⟩ := ih
    obtain ⟨rfl, hne⟩ := Lexeme.next_eq hnext
    refine ⟨rest', ?_, ?_, hfault⟩
    · rw [List.flatMap_cons, List.append_assoc, ← hrest]
    · simpa using ⟨hne, hsources⟩

end Scan

namespace Document

variable {d : Document} {g : Grammar}

theorem hasSpan_of_fault {f : Fault} (h : (d.scan g).fault = some f) :
    d.text.HasSpan (f.shift (d.scan g).stop).span ∧
      (f.shift (d.scan g).stop).span.start < d.size := by
  obtain ⟨rest, htext, -, hfault⟩ := Scan.split g d.text
  obtain ⟨hne, hnext⟩ := hfault f h
  obtain ⟨hspan, hlt⟩ := Lexeme.hasSpan_of_fault hne hnext
  have hsize : d.size = (d.scan g).stop + rest.size := by
    rw [size, htext, Text.size_append]
    rfl
  refine ⟨?_, ?_⟩
  · have hinside := hspan.inside ((d.scan g).lexemes.flatMap Lexeme.source) []
    rw [List.append_nil, scan, ← htext, Nat.add_comm, Nat.add_comm _ f.span.stop] at hinside
    exact hinside
  · rw [hsize, Fault.shift, Span.shift]
    dsimp only
    omega

/-- A block that was scanned is a span of the text, and where it is an include tag, the opening of one
is there. -/
theorem hasSpan_of_mem_blocks {b : Block} (h : b ∈ (d.scan g).blocks) :
    d.text.HasSpan b.span ∧ b.span.start < d.size ∧
      (b.kind = .tag .inclusion → Tag.inclusion.opening <:+: d.text) := by
  obtain ⟨rest, htext, hsources, -⟩ := Scan.split g d.text
  obtain ⟨front, x, back, hlexemes, rfl⟩ := Lexeme.exists_append_of_mem_blocks h
  have hx : x.source ≠ [] := hsources x (by
    rw [scan] at hlexemes
    simp [hlexemes])
  -- What was read in front of the block, the block, and all the rest.
  have hsplit : d.text = front.flatMap Lexeme.source ++ x.source
      ++ (back.flatMap Lexeme.source ++ rest) := by
    rw [scan] at hlexemes
    rw [htext, hlexemes]
    simp
  have hpos := Text.size_pos hx
  refine ⟨⟨_, _, _, hsplit, ?_⟩, ?_, fun hkind => ?_⟩
  · simp [Lexeme.block, Lexeme.size]
  · rw [size, hsplit]
    simp [Lexeme.block]
    omega
  · cases x with
    | literal text => cases hkind
    | tagged tag body =>
      cases hkind
      have hopening : Tag.inclusion.opening <:+: (Lexeme.tagged .inclusion body).source := by
        rw [Lexeme.source, List.append_assoc]
        exact (List.prefix_append _ _).isInfix
      rw [hsplit, List.append_assoc]
      exact hopening.trans (List.infix_append' _ _ _)

end Document

/-! ## Documents without a program

The statements of a program are made block by block, up to the first include tag or the fault that ended
the scan.  So there is one error, and it is that of one block or that of the fault.  The document raises
it where the span is, and wraps it in the tags that the text there came through. -/

/-- The error of a fault has no wrappers of its own, and says where the fault is. -/
theorem Fault.error_place (f : Fault) (l : Location) :
    (f.error l).includeChain = [] ∧ (f.error l).location? = some l := by
  obtain ⟨kind, span⟩ := f
  cases kind with
  | unopened => exact ⟨rfl, rfl⟩
  | unclosed expected => exact ⟨rfl, rfl⟩
  | unrecognized tag => exact ⟨rfl, rfl⟩

/-- There is no plan if the scan had a fault or an include tag is among the blocks. -/
theorem Plan.eq_of_ofBlocks {d : Document} {failure : Option BuildError} {blocks : List Block}
    {e : BuildError} (h : Plan.ofBlocks d failure blocks = .error e) :
    failure = some e ∨ ∃ b ∈ blocks, b.kind = .tag .inclusion ∧
      e = d.errorAt b.span .foundUnprocessedInclude := by
  induction blocks with
  | nil =>
    cases failure with
    | none => cases h
    | some e' =>
      cases h
      exact .inl rfl
  | cons b blocks ih =>
    rw [ofBlocks.eq_def] at h
    dsimp only at h
    have hlater (hrest : Plan.ofBlocks d failure blocks = .error e) : failure = some e ∨
        ∃ b' ∈ b :: blocks, b'.kind = .tag .inclusion ∧
          e = d.errorAt b'.span .foundUnprocessedInclude := by
      rcases ih hrest with hfailure | ⟨b', hb', hkind, he⟩
      · exact .inl hfailure
      · exact .inr ⟨b', List.mem_cons_of_mem _ hb', hkind, he⟩
    -- An include tag ends the plan; any other block is passed over.
    split at h
    · next hkind =>
      cases h
      exact .inr ⟨b, List.mem_cons_self .., hkind, rfl⟩
    · exact hlater (map_eq_error.1 h)
    · exact hlater (map_eq_error.1 h)

/-- A document has no program if it cannot be scanned or an include tag is left in it. -/
theorem Program.eq_of_ofDocument {c : EmitContext} {d : Document} {e : BuildError}
    (h : Program.ofDocument c d = .error e) :
    (∃ f, (d.scan .standard).fault = some f ∧
      e = d.faultError (f.shift (d.scan .standard).stop)) ∨
    ∃ b ∈ (d.scan .standard).blocks, b.kind = .tag .inclusion ∧
      e = d.errorAt b.span .foundUnprocessedInclude := by
  rcases Plan.eq_of_ofBlocks (map_eq_error.1 h) with hfailure | hblock
  · obtain ⟨f, hf, he⟩ := Option.map_eq_some_iff.1 hfailure
    exact .inl ⟨f, hf, he.symm⟩
  · exact .inr hblock

namespace Generator

variable {g : Generator} {serial : Nat} {template : Path} {encoding : Option TextEncoding}
  {e : BuildError}

/-- A program fails with its expansion or after it. -/
theorem eq_of_program (h : (g.program serial template encoding).result = .error e) :
    (g.expand template encoding).result = .error e ∨
      ∃ t, (g.expand template encoding).result = .ok t ∧
        Program.ofDocument (g.context serial t) t.document = .error e := by
  change (g.expand template encoding).result >>= _ = _ at h
  exact bind_eq_error.1 h

/-- What an expanded document has no program for is traced, too. -/
theorem traced_of_ofDocument {t : ExpandedTemplate} (ht : (g.expand template encoding).result = .ok t)
    (h : Program.ofDocument (g.context serial t) t.document = .error e) :
    e.Traced g.surroundings (asked t.path encoding) (g.expand template encoding).reads t.path := by
  rcases Program.eq_of_ofDocument h with ⟨f, hf, rfl⟩ | ⟨b, hb, -, rfl⟩
  · obtain ⟨hspan, hlt⟩ := Document.hasSpan_of_fault hf
    exact traced_errorAt ht hlt hspan (fun l => (Fault.error_place _ l).1)
      (fun l => (Fault.error_place _ l).2)
  · obtain ⟨hspan, hlt, -⟩ := Document.hasSpan_of_mem_blocks hb
    exact traced_errorAt ht hlt hspan (fun _ => rfl) (fun _ => rfl)

/-- Both kinds of failure are traced from the file of the template. -/
theorem traced_of_program {path : Path} (hpath : g.absolute template = .ok path)
    (h : (g.program serial template encoding).result = .error e) :
    e.Traced g.surroundings (asked path encoding) (g.program serial template encoding).reads path := by
  rcases eq_of_program h with hexpand | ⟨t, ht, hdocument⟩
  · exact traced_of_expand hpath hexpand
  · obtain rfl : path = t.path := Except.ok.inj (hpath.symm.trans (unfolds_of_expand ht).1)
    exact traced_of_ofDocument ht hdocument

/-- **Every error of a build leads to where it came up.**  Its wrappers are include tags that stand in
files that were read, from the template on each in the file that the one before it names, and what it
is about is the file that the last one names. -/
theorem program_traced (hne : template.text ≠ [])
    (h : (g.program serial template encoding).result = .error e) :
    ∃ path, g.absolute template = .ok path ∧ e.Traced g.surroundings (asked path encoding)
      (g.program serial template encoding).reads path := by
  obtain ⟨path, hpath⟩ : ∃ path, g.absolute template = .ok path := by
    rw [absolute, Path.absolute?, if_neg hne]
    exact ⟨_, rfl⟩
  exact ⟨path, hpath, traced_of_program hpath h⟩

/-- A tag that nothing closes, in a file that a template includes. -/
theorem program_traced_through_tag :
    let a : Path × Text := (.ofString "/a", "first\n<%@include file=\"b\"%>".toList)
    let b : Path × Text := (.ofString "/b", "<% x".toList)
    let g : Generator := ⟨.ofTexts [a, b], .ofString "/", ⟨1, 0, 10, [], []⟩, false⟩
    let e : BuildError := .failedToIncludeFile ['b'] ⟨a.1, 2, ⟨6, 27⟩⟩
      (.missingClosingBlock outerClosing ⟨b.1, 1, ⟨0, 2⟩⟩)
    a.1.text ≠ [] ∧ (g.program 0 a.1 none).result = .error e ∧
      e.Traced g.surroundings (asked a.1 none) (g.program 0 a.1 none).reads a.1 := by
  intro a b g e
  have hne : a.1.text ≠ [] := by decide
  have hprogram : (g.program 0 a.1 none).result = .error e := by
    refine result_program_of_within ?_
    simp only [Program.ofDocument, Grammar.standard_eq]
    decide +kernel
  obtain ⟨path, hpath, htraced⟩ := program_traced hne hprogram
  obtain rfl : a.1 = path := Except.ok.inj hpath
  exact ⟨hne, hprogram, htraced⟩

end Generator
end Templating
