import Templating.Proofs.Block.Scan
import Templating.Proofs.Include.Walk

/-!
# Looking for include tags, and scanning

Include tags are looked for in a pass of its own, which passes over every other tag as if it were text.
It agrees with the scan all the same: whatever the one finds inside a tag of the other, both of them go
on behind the same closing delimiter.

## What is here

* `IncludeTag.Placed` says where among the blocks of a scan an include tag is; `Tag.exists_inside` cuts
  a tag where the opening delimiter of another one stands in it.
* `IncludeTag.Found.step` goes past one lexeme, and `IncludeTag.Found.scan` past all of them.
* `IncludeTag.findAll_scan` says what the pass finds, and how that fits with a scan.
-/

set_option autoImplicit false

namespace Templating

/-- An include tag is an inclusion block, or it stands inside another tag and ends where that ends. -/
inductive IncludeTag.Placed (span : Span) (b : Block) : Prop
  | block (hkind : b.kind = .tag .inclusion) (hspan : b.span = span)
  | inside {tag : Tag} (hkind : b.kind = .tag tag) (hother : tag ≠ .inclusion)
      (hstart : b.span.start < span.start) (hstop : span.stop = b.span.stop)

/-! ## An opening delimiter inside another tag

The opening of an include tag may stand in the body of another tag, and the search takes it for one.  It
cannot lie across the end of that body, because the body is followed by a percent sign and an opening
has none at its end. -/

namespace Tag

variable {tag : Tag} {lead body inside : Text}

/-- The opening delimiter of an include tag that begins inside a tag ends before that tag closes. -/
theorem exists_inside {more : Text}
    (h : tag.opening ++ body ++ ['%'] = lead ++ Tag.inclusion.opening ++ more) :
    ∃ inside, more = inside ++ ['%'] ∧
      tag.opening ++ body = lead ++ Tag.inclusion.opening ++ inside := by
  have hlast := congrArg List.getLast? h
  rcases List.eq_nil_or_concat more with rfl | ⟨inside, c, rfl⟩
  · simp [opening, suffix] at hlast
  · obtain rfl : '%' = c := by simpa using hlast
    rw [List.concat_eq_append, ← List.append_assoc, List.append_cancel_right_eq] at h
    exact ⟨inside, List.concat_eq_append, h⟩

/-- So from there on the first closing is that of the tag around it. -/
theorem not_closing_of_inside (h : tag.opening ++ body = lead ++ Tag.inclusion.opening ++ inside)
    (hbody : tag.Admits body) : ¬ outerClosing <:+: inside := by
  -- No opening delimiter is longer than that of an include tag: what is behind it is in the body.
  have hsuffix : inside <:+ tag.opening ++ body := ⟨_, h.symm⟩
  have hshort : tag.opening.length ≤ Tag.inclusion.opening.length := by cases tag <;> decide
  have hlength := congrArg List.length h
  simp only [List.length_append] at hlength
  have hbehind : inside <:+ body :=
    List.suffix_of_suffix_length_le hsuffix (List.suffix_append _ body) (by omega)
  exact fun hpart => hbody.closing (hpart.trans hbehind.isInfix)

/-- And the opening does not begin where the other tag does, as the longer opening would have been read
there. -/
theorem ne_nil_of_inside (h : tag.opening ++ body = lead ++ Tag.inclusion.opening ++ inside)
    (hbody : tag.Admits body) (hother : tag ≠ .inclusion) : lead ≠ [] := by
  rintro rfl
  have hopening : inclusion.opening <+: tag.opening ++ (body ++ outerClosing ++ []) := by
    refine ⟨inside ++ outerClosing, ?_⟩
    rw [List.append_nil, ← List.append_assoc tag.opening, h, List.nil_append, List.append_assoc]
  have hlength := (Lexeme.longest_of_admits hbody []).length_le _ (Grammar.mem_standard _) hopening
  refine hother ?_
  revert hlength
  cases tag <;> decide

end Tag

namespace IncludeTag

variable {path : Path} {n : Nat} {t : Text} {tags : List IncludeTag}

/-! ## Tags one after the other

What is found is in order, and no opening is passed over, except inside a tag that was found. -/

/-- The tags that are found do not overlap. -/
theorem Found.pairwise (h : Found path n t tags) :
    tags.Pairwise fun a b => a.span.stop ≤ b.span.start := by
  induction h with
  | nil => exact .nil
  | cons _ _ _ hrest ih => exact .cons hrest.le_start ih

/-- An include tag opens only where one is found. -/
theorem Found.exists_of_opening (h : Found path n t tags) {front back : Text}
    (ht : t = front ++ Tag.inclusion.opening ++ back) :
    ∃ tag ∈ tags, tag.span.start ≤ n + front.size ∧
      n + (front ++ Tag.inclusion.opening).size ≤ tag.span.stop := by
  induction h generalizing front with
  | nil hno => exact absurd ⟨front, back, ht.symm⟩ hno
  | @cons n lead body rest includePath tags hlead _ _ _ ih =>
    have hfirst := Text.cut?_first hlead ht
    have hpart : lead <+: front ++ (Tag.inclusion.opening ++ back) := by
      rw [← List.append_assoc, ← ht]
      exact List.prefix_append lead _
    obtain ⟨more, rfl⟩ : lead <+: front :=
      List.prefix_of_prefix_length_le hpart (List.prefix_append front _) hfirst
    have hsplit : lead ++ more ++ Tag.inclusion.opening ++ back
        = (lead ++ (Tag.inclusion.opening ++ body ++ ['%'])) ++ '>' :: rest := by
      rw [← ht]
      simp [Tag.closing, outerClosing]
    rcases Text.occurrence_beside (by decide) hsplit with
      ⟨beyond, hbeyond, -⟩ | ⟨later, hlater, hrest⟩
    · refine ⟨_, List.mem_cons_self .., ?_, ?_⟩
      · simp
      · have hsize := congrArg Text.size hbeyond
        simp [Tag.closing, outerClosing] at hsize ⊢
        omega
    · obtain ⟨tag, htag, hstart, hstop⟩ := ih hrest
      have hsize := congrArg Text.size hlater
      refine ⟨tag, List.mem_cons_of_mem _ htag, ?_, ?_⟩
      · simp [Tag.closing, outerClosing] at hstart hsize ⊢
        omega
      · simp [Tag.closing, outerClosing] at hstop hsize ⊢
        omega

/-! ## One lexeme

A scan takes one lexeme at a time, so the search is compared with it lexeme by lexeme.  In a literal
text there is no opening; an include tag is found as it is; in any other tag one include tag at most is
found, and it ends where that tag ends.  In each case the search goes on where the scan does. -/

/-- An include tag at the front of a text is found. -/
theorem Found.behind_inclusion {body rest : Text}
    (h : Found path n ((Lexeme.tagged .inclusion body).source ++ rest) tags)
    (hbody : ¬ outerClosing <:+: body) :
    ∃ tag later, tags = tag :: later ∧
      tag.span = ((Lexeme.tagged .inclusion body).block n).span ∧
      Found path (n + (Lexeme.tagged .inclusion body).size) rest later := by
  have hopening : (Lexeme.tagged .inclusion body).source ++ rest
      = [] ++ Tag.inclusion.opening ++ (body ++ outerClosing ++ rest) := by
    simp [Lexeme.source, Tag.closing]
  generalize htext : (Lexeme.tagged .inclusion body).source ++ rest = text at h
  rw [htext] at hopening
  cases h with
  | nil hno => exact absurd ⟨[], _, hopening.symm⟩ hno
  | @cons _ lead body' rest' _ _ hlead hbody' hpath hrest =>
    obtain rfl : lead = [] := by simpa using Text.cut?_first hlead hopening
    obtain ⟨rfl, rfl⟩ : body = body' ∧ rest = rest' := by
      refine Text.append_pair_inj (by decide) hbody hbody' ?_
      simpa [Lexeme.source, Tag.closing, outerClosing] using htext
    exact ⟨_, _, rfl, rfl, hrest⟩

/-- Of other tags it is known only where they end: there at the latest, an include tag that begins
inside ends too. -/
theorem Found.behind_tag {tag : Tag} {body rest : Text}
    (h : Found path n ((Lexeme.tagged tag body).source ++ rest) tags) (hbody : tag.Admits body)
    (hother : tag ≠ .inclusion) :
    ∃ inner later, tags = inner ++ later ∧
      (∀ a ∈ inner, n < a.span.start ∧ a.span.stop = n + (Lexeme.tagged tag body).size) ∧
      Found path (n + (Lexeme.tagged tag body).size) rest later := by
  have hclosing : (Lexeme.tagged tag body).source ++ rest
      = (tag.opening ++ body ++ ['%']) ++ '>' :: rest := by
    simp [Lexeme.source, Tag.closing, outerClosing]
  generalize htext : (Lexeme.tagged tag body).source ++ rest = text at h
  cases h with
  | nil hno =>
    refine ⟨[], [], rfl, by simp, .nil fun hpart => hno ?_⟩
    rw [← htext]
    exact hpart.trans (List.suffix_append _ rest).isInfix
  | @cons _ lead body' rest' _ _ hlead hbody' hpath hrest =>
    have hsplit : lead ++ Tag.inclusion.opening ++ (body' ++ Tag.inclusion.closing ++ rest')
        = (tag.opening ++ body ++ ['%']) ++ '>' :: rest := by
      rw [← hclosing, htext]
      simp
    rcases Text.occurrence_beside (by decide) hsplit with ⟨more, hmore, hback⟩ | ⟨more, rfl, rfl⟩
    · -- It begins inside, and both end at the same closing delimiter.
      obtain ⟨inside, rfl, hinside⟩ := Tag.exists_inside hmore
      obtain ⟨rfl, rfl⟩ : body' = inside ∧ rest' = rest := by
        refine Text.append_pair_inj (by decide) hbody' (Tag.not_closing_of_inside hinside hbody) ?_
        simpa [Tag.closing, outerClosing] using hback
      have hlead' : lead ≠ [] := Tag.ne_nil_of_inside hinside hbody hother
      have hsize : (Lexeme.tagged tag body).size
          = lead.size + (Tag.inclusion.opening ++ body' ++ Tag.inclusion.closing).size := by
        have hsize := congrArg Text.size htext
        simp only [Text.size_append] at hsize ⊢
        rw [Lexeme.size]
        omega
      rw [hsize, ← Nat.add_assoc]
      refine ⟨[_], _, rfl, ?_, hrest⟩
      have hpos := Text.size_pos hlead'
      simp
      omega
    · -- It begins behind.
      refine ⟨[], _, rfl, by simp, ?_⟩
      have hlead' : tag.opening ++ body ++ ['%'] ++ '>' :: more
          = (Lexeme.tagged tag body).source ++ more := by
        simp [Lexeme.source, Tag.closing, outerClosing]
      rw [hlead', List.append_assoc] at hlead
      rw [hlead', Text.size_append, ← Nat.add_assoc] at hrest ⊢
      have hbehind : more ++ Tag.inclusion.opening ++ (body' ++ Tag.inclusion.closing ++ rest')
          = more ++ (Tag.inclusion.opening ++ body' ++ Tag.inclusion.closing ++ rest') := by
        simp
      rw [hbehind]
      exact Found.cons (Text.cut?_of_append hlead) hbody' hpath hrest

/-- An include tag that is found either is the lexeme at the front of the text, or it lies in it and
ends with it, or it begins behind it. -/
theorem Found.step {x : Lexeme} {rest : Text} (h : Found path n (x.source ++ rest) tags)
    (hx : x.Valid) (hrest : x.isTagged = false → rest = [] ∨ outerOpening <+: rest) :
    ∃ here later, tags = here ++ later ∧ (∀ tag ∈ here, Placed tag.span (x.block n)) ∧
      ((x.block n).kind = .tag .inclusion → ∃ tag ∈ here, tag.span = (x.block n).span) ∧
      Found path (n + x.size) rest later := by
  -- A literal text, an include tag, or another tag.
  cases x with
  | literal text =>
    have hseam : Text.Seam text rest := by
      rcases hrest rfl with rfl | hopening
      · exact Text.seam_of_head nofun
      · exact Text.seam_of_head_eq (Text.head?_of_opening_prefix hopening) (by decide)
    exact ⟨[], tags, rfl, by simp, nofun, h.of_plain hx.1 hseam⟩
  | tagged tag body =>
    by_cases htag : tag = .inclusion
    · subst htag
      obtain ⟨tag, later, rfl, hspan, hlater⟩ := h.behind_inclusion hx.closing
      refine ⟨[tag], later, rfl, ?_, fun _ => ⟨tag, List.mem_singleton_self _, hspan⟩, hlater⟩
      simpa using Placed.block rfl hspan.symm
    · obtain ⟨inner, later, rfl, hinner, hlater⟩ := h.behind_tag hx htag
      refine ⟨inner, later, rfl, fun a ha => ?_, fun hkind => ?_, hlater⟩
      · exact .inside rfl htag (hinner a ha).1 (hinner a ha).2
      · exact absurd (BlockKind.tag.inj hkind) htag

/-! ## A whole scan

The scan may stop at a fault, and then nothing is known of the include tags behind it.  Up to there
every one of them is placed. -/

/-- The include tags that are found and the blocks of a scan up to wherever it ended. -/
theorem Found.scan (h : Found path n t tags) :
    (∀ b ∈ Lexeme.blocks n (Scan.ofText .standard t).lexemes, b.kind = .tag .inclusion →
      ∃ tag ∈ tags, tag.span = b.span) ∧
    ∀ tag ∈ tags, tag.span.start < n + (Scan.ofText .standard t).stop →
      ∃ b ∈ Lexeme.blocks n (Scan.ofText .standard t).lexemes, Placed tag.span b := by
  induction t using Scan.ofText_induct (g := .standard) generalizing n tags with
  | finish =>
    refine ⟨by simp [Lexeme.blocks], fun tag htag hlt => ?_⟩
    have hle := h.le_start tag htag
    simp [Scan.stop] at hlt
    omega
  | fault t f _ _ =>
    refine ⟨by simp [Lexeme.blocks], fun tag htag hlt => ?_⟩
    have hle := h.le_start tag htag
    simp [Scan.stop] at hlt
    omega
  | step t x rest hnext ih =>
    obtain ⟨rfl, -⟩ := Lexeme.next_eq hnext
    obtain ⟨hx, hrest⟩ := Lexeme.valid_of_next hnext
    obtain ⟨here, later, rfl, hhere, hblock, hlater⟩ := h.step hx hrest
    obtain ⟨hblocks, htags⟩ := ih hlater
    refine ⟨fun b hb hkind => ?_, fun tag htag hlt => ?_⟩
    · rcases List.mem_cons.1 hb with rfl | hb
      · obtain ⟨tag, htag, hspan⟩ := hblock hkind
        exact ⟨tag, List.mem_append_left _ htag, hspan⟩
      · obtain ⟨tag, htag, hspan⟩ := hblocks b hb hkind
        exact ⟨tag, List.mem_append_right _ htag, hspan⟩
    · rcases List.mem_append.1 htag with htag | htag
      · exact ⟨_, List.mem_cons_self .., hhere tag htag⟩
      · rw [Scan.stop, List.flatMap_cons, Text.size_append, ← Nat.add_assoc] at hlt
        obtain ⟨b, hb, hplaced⟩ := htags tag htag hlt
        exact ⟨b, List.mem_cons_of_mem _ hb, hplaced⟩

/-- **Looking for include tags agrees with scanning.**  The include tags found in a text follow each
other, each reaches up to the first closing delimiter, and no include tag opens outside of them.  Every
inclusion block of the scan is one of them, and as far as the scan comes, the others stand inside other
tags and end where those end. -/
theorem findAll_scan {d : Document} (h : findAll d = .ok tags) :
    (tags.Pairwise fun a b => a.span.stop ≤ b.span.start) ∧
    (∀ tag ∈ tags, Written d.text tag.span tag.includePath) ∧
    (∀ front back, d.text = front ++ Tag.inclusion.opening ++ back →
      ∃ tag ∈ tags, tag.span.start ≤ front.size ∧
        (front ++ Tag.inclusion.opening).size ≤ tag.span.stop) ∧
    (∀ b ∈ (d.scan .standard).blocks, b.kind = .tag .inclusion →
      ∃ tag ∈ tags, tag.span = b.span) ∧
    ∀ tag ∈ tags, tag.span.start < (d.scan .standard).stop →
      ∃ b ∈ (d.scan .standard).blocks, Placed tag.span b := by
  have hfound := found_of_findFrom h
  obtain ⟨hblocks, htags⟩ := hfound.scan
  rw [Nat.zero_add] at htags
  refine ⟨hfound.pairwise, written_of_findAll h, fun front back ht => ?_, hblocks, htags⟩
  simpa using hfound.exists_of_opening ht

/-- An include tag, and another one that stands inside code. -/
theorem findAll_scan_inside_code :
    let d := Document.ofSource (.ofString "/a")
      "<%@include file=\"b\"%><% <%@include file=\"c\"%> %>".toList
    ∃ tags, findAll d = .ok tags ∧ tags.map (·.span) = [⟨0, 21⟩, ⟨24, 45⟩] ∧
      ∀ tag ∈ tags, ∃ b ∈ (d.scan .standard).blocks, Placed tag.span b := by
  intro d
  have htags : findAll d
      = .ok [⟨⟨0, 21⟩, ['b'], .ofString "/b"⟩, ⟨⟨24, 45⟩, ['c'], .ofString "/c"⟩] := by
    decide +kernel
  have hstop : (d.scan .standard).stop = 45 := by
    rw [Document.scan, Grammar.standard_eq]
    decide +kernel
  refine ⟨_, htags, rfl, fun tag htag => ?_⟩
  obtain ⟨-, -, -, -, hplaced⟩ := findAll_scan htags
  refine hplaced tag htag ?_
  rw [hstop]
  simp only [List.mem_cons, List.not_mem_nil, or_false] at htag
  rcases htag with rfl | rfl
  · decide
  · decide

end IncludeTag
end Templating
