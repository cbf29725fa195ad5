import Mathlib.Data.List.Find
import Mathlib.Order.Bounds.Basic
import Templating.Proofs.Block.Cursor
import Templating.Proofs.Encoding.RoundTrip

/-!
# The window that decides on a tag

A grammar looks at no more bytes of a text than its longest opening has, and at no part of a character.
That is enough to find the longest opening that the text starts with, and how the kinds of block were
listed makes no difference to it.

## What is here

* `Text.isGreatest_takeBytes` says where a window ends.
* `Grammar.match?_window` says that nothing behind the window counts, and `Grammar.find?_bytes` that
  neither does a part of a character that was cut off from it.
* `Grammar.match?_window_of_same` compares two grammars of the same tags.
* `Grammar.match?_ofKinds` says what is found with the grammar of any kinds at any place of any text.
-/

set_option autoImplicit false

namespace Templating

/-! ## Where a window ends

A window is described from the outside, as the slice up to the last boundary that is not too far away.
That says all there is to say, without a word on how characters are taken one by one. -/

namespace Text

/-- The front of a text is no longer than the text. -/
theorem size_le_of_prefix {s t : Text} (h : s <+: t) : size s ≤ size t := by
  obtain ⟨rest, rfl⟩ := h
  rw [size_append]
  exact Nat.le_add_right _ _

/-- What can be taken behind a front, and what is left then. -/
theorem exists_behind_takeBytes (front rest : Text) (n : Nat) :
    ∃ back, front ++ rest = front ++ rest.takeBytes n ++ back := by
  obtain ⟨back, hback⟩ := Lexeme.takeBytes_prefix_text n rest
  exact ⟨back, by rw [List.append_assoc, hback]⟩

/-- The bytes that can be taken behind the front of a text go up to the last boundary in reach. -/
theorem isGreatest_takeBytes (front rest : Text) (n : Nat) :
    IsGreatest {stop | Boundary (front ++ rest) stop ∧ stop ≤ size front + n}
      (size front + size (rest.takeBytes n)) := by
  constructor
  · obtain ⟨back, htext⟩ := exists_behind_takeBytes front rest n
    exact ⟨⟨_, back, htext, size_append _ _⟩,
      Nat.add_le_add_left (Lexeme.size_takeBytes_le n rest) _⟩
  · rintro stop ⟨hstop, hle⟩
    rcases Nat.le_total stop (size front) with hfront | hfront
    · exact hfront.trans (Nat.le_add_right _ _)
    · -- A boundary behind the front cuts off a part of the rest, and that part can be taken.
      obtain ⟨inner, back, hrest, hsize⟩ := hstop.of_append_left hfront
      have hinner : inner <+: rest.takeBytes n :=
        Grammar.prefix_takeBytes ⟨back, hrest.symm⟩ (by omega)
      have hwithin := size_le_of_prefix hinner
      omega

end Text

/-! ## Bytes and characters

A text can be compared with the beginning of another one byte by byte as well as character by character:
the encoding of a character tells where it ends. -/

namespace Utf8

/-- A text begins another one exactly if its bytes do. -/
theorem encode_prefix_iff {s t : Text} : encode s <+: encode t ↔ s <+: t := by
  refine ⟨fun h => prefix_of_encode_prefix h, ?_⟩
  rintro ⟨rest, rfl⟩
  exact ⟨encode rest, (encode_append s rest).symm⟩

/-- At a boundary bytes can be dropped before or after. -/
theorem encode_dropBytes {t : Text} {n : Nat} (h : t.Boundary n) :
    encode (t.dropBytes n) = (encode t).drop n := by
  obtain ⟨front, back, rfl, rfl⟩ := h
  rw [Text.dropBytes_append_of_size, encode_append, ← length_encode, List.drop_left]

end Utf8

/-! ## What is found in a window

Whether a tag is found depends on the opening of each tag being the front of the window or not.  As no
opening is longer than the window would be, the window can be replaced by more of the text, or by its
bytes. -/

namespace Grammar

/-- The window is what stands between the offset and the last boundary that the longest opening could
reach from there. -/
theorem exists_window_eq_slice (g : Grammar) {text : Text} {offset : Nat} (h : text.Boundary offset) :
    ∃ stop, IsGreatest {n | text.Boundary n ∧ n ≤ offset + g.maxOpening} stop ∧
      g.window (text.dropBytes offset) = text.slice ⟨offset, stop⟩ := by
  obtain ⟨front, rest, rfl, rfl⟩ := h
  refine ⟨_, Text.isGreatest_takeBytes front rest g.maxOpening, ?_⟩
  obtain ⟨back, htext⟩ := Text.exists_behind_takeBytes front rest g.maxOpening
  rw [Text.dropBytes_append_of_size]
  exact (Text.slice_eq htext rfl rfl).symm

/-- Nothing behind the window counts. -/
theorem match?_window (g : Grammar) (t : Text) : g.match? (g.window t) = g.match? t := by
  refine List.find?_congr fun tag htag => ?_
  rw [Bool.eq_iff_iff, List.isPrefixOf_iff_prefix, List.isPrefixOf_iff_prefix,
    opening_prefix_window_iff htag]

/-- The bytes in reach decide alike if they are not cut back, even where they end inside a character. -/
theorem find?_bytes (g : Grammar) (t : Text) :
    g.tags.find? (fun tag =>
      (Utf8.encode tag.opening).isPrefixOf ((Utf8.encode t).take g.maxOpening)) = g.match? t := by
  refine List.find?_congr fun tag htag => ?_
  have hlength : (Utf8.encode tag.opening).length ≤ g.maxOpening := by
    rw [Utf8.length_encode]
    exact size_opening_le htag
  rw [Bool.eq_iff_iff, List.isPrefixOf_iff_prefix, List.isPrefixOf_iff_prefix, List.prefix_take_iff,
    Utf8.encode_prefix_iff, and_iff_left hlength]

/-- The longest tag is that of any grammar with the same tags. -/
theorem Longest.of_same {g g' : Grammar} {t : Text} {tag : Tag} (h : g.Longest t tag)
    (hsame : ∀ other, other ∈ g.tags ↔ other ∈ g'.tags) : g'.Longest t tag :=
  ⟨(hsame tag).1 h.mem, h.opening, fun other hother => h.length_le other ((hsame other).2 hother)⟩

/-- Tags whose openings are as long as each other may be tried in any order. -/
theorem match?_window_of_same {g g' : Grammar} (hg : g.Sorted) (hg' : g'.Sorted)
    (hsame : ∀ tag, tag ∈ g.tags ↔ tag ∈ g'.tags) (t : Text) :
    g.match? (g.window t) = g'.match? (g'.window t) := by
  refine Option.ext fun tag => ?_
  rw [match?_window_eq_some_iff hg, match?_window_eq_some_iff hg']
  exact ⟨fun h => h.of_same hsame, fun h => h.of_same fun other => (hsame other).symm⟩

/-- The grammar of some kinds tries longer openings first. -/
theorem sorted_ofKinds (kinds : List BlockKind) : (ofKinds kinds).Sorted := sorted_ofTags _

/-- **The longest opening at its place is found.**  With the grammar of any kinds, at any offset between
two characters of any text, the tag that is found in the window is the registered one with the longest
opening that the rest of the text starts with, and none is found exactly if there is no such tag.  The
window ends at the last boundary in reach of the longest opening; the whole rest, and the bytes in reach
as they are, decide alike, and so does the grammar of the same kinds in another order. -/
theorem match?_ofKinds (kinds : List BlockKind) {text : Text} {offset : Nat}
    (h : text.Boundary offset) :
    let g := ofKinds kinds
    let rest := text.dropBytes offset
    (∀ tag, tag ∈ g.tags ↔ .tag tag ∈ kinds) ∧
    (∃ stop, IsGreatest {n | text.Boundary n ∧ n ≤ offset + g.maxOpening} stop ∧
      g.window rest = text.slice ⟨offset, stop⟩) ∧
    (∀ tag, g.match? (g.window rest) = some tag ↔ g.Longest rest tag) ∧
    (g.match? (g.window rest) = none ↔ ∀ tag, .tag tag ∈ kinds → ¬ tag.opening <+: rest) ∧
    g.match? (g.window rest) = g.match? rest ∧
    g.match? (g.window rest) = g.tags.find? (fun tag => (Utf8.encode tag.opening).isPrefixOf
      (((Utf8.encode text).drop offset).take g.maxOpening)) ∧
    ∀ others : List BlockKind, (∀ tag, .tag tag ∈ others ↔ .tag tag ∈ kinds) →
      (ofKinds others).match? ((ofKinds others).window rest) = g.match? (g.window rest) := by
  intro g rest
  have hmem (tag : Tag) : tag ∈ g.tags ↔ .tag tag ∈ kinds := mem_ofKinds_iff
  have hg : g.Sorted := sorted_ofKinds kinds
  refine ⟨hmem, g.exists_window_eq_slice h, fun tag => match?_window_eq_some_iff hg, ?_,
    g.match?_window rest, ?_, fun others hothers => ?_⟩
  · rw [match?_window_eq_none_iff]
    exact forall_congr' fun tag => imp_congr_left (hmem tag)
  · rw [← Utf8.encode_dropBytes h, find?_bytes, match?_window]
  · refine match?_window_of_same (sorted_ofKinds others) hg (fun tag => ?_) rest
    rw [hmem, mem_ofKinds_iff, hothers]

/-- A window of three bytes, of which the last one is half a character. -/
theorem match?_ofKinds_inside_character :
    let kinds : List BlockKind := [.tag .code, .text, .tag .print, .tag .code]
    let others : List BlockKind := [.tag .print, .tag .code]
    let text : Text := ['é', '<', '%', 'é']
    text.Boundary 2 ∧ (∀ tag, .tag tag ∈ others ↔ .tag tag ∈ kinds) ∧ (ofKinds kinds).maxOpening = 3 ∧
      (ofKinds kinds).window (text.dropBytes 2) = ['<', '%'] ∧
      (ofKinds kinds).match? ((ofKinds kinds).window (text.dropBytes 2)) = some .code ∧
      (ofKinds others).match? ((ofKinds others).window (text.dropBytes 2)) = some .code := by
  intro kinds others text
  have hboundary : text.Boundary 2 := ⟨['é'], ['<', '%', 'é'], rfl, by decide⟩
  have hothers (tag : Tag) : .tag tag ∈ others ↔ .tag tag ∈ kinds := by cases tag <;> decide
  -- `decide` does not see through the sorting, so the order of the tags is worked out first.
  have hcode : Tag.code.suffix.size = 0 := rfl
  have hprint : Tag.print.suffix.size = 1 := by decide
  have hgrammar : ofKinds kinds = ⟨[.print, .code]⟩ := by
    have htags : (kinds.filterMap BlockKind.tag?).eraseDups = [.code, .print] := by decide
    rw [ofKinds, ofTags, htags]
    simp [List.mergeSort, List.MergeSort.Internal.splitInTwo, hcode, hprint]
  obtain ⟨hmem, -, hfound, -, -, -, hsame⟩ := match?_ofKinds kinds hboundary
  have hlongest : (ofKinds kinds).Longest (text.dropBytes 2) .code := by
    refine ⟨(hmem .code).2 (by decide), by decide, fun other hother hopening => ?_⟩
    cases other with
    | code => decide
    | print => exact absurd hopening (by decide)
    | declaration => exact absurd hopening (by decide)
    | inclusion => exact absurd hopening (by decide)
  have hmatch := (hfound .code).2 hlongest
  refine ⟨hboundary, hothers, ?_, ?_, hmatch, (hsame others hothers).trans hmatch⟩
  · rw [hgrammar]
    decide
  · rw [hgrammar]
    decide

end Grammar
end Templating
