import Templating.Document
import Templating.Proofs.Text.Offsets

/-!
# Looking offsets up

Lines and segments are found in tables that are sorted by offset.

A table of offsets is searched for the last entry that is not behind the one in question, which is the
one in front of a partition point.  The lemmas here say what the search comes to when the table is
written as the part before the entry, the entry, and the part behind it.  Nothing else is ever used of
it.

## What is here

* `SourceFile.lineOf_append`: a line is counted by the line breaks before it.
* `Document.segmentAt?_of_append`: an offset inside a piece is looked up as that piece.
* `Document.locate_ofSource`: a file by itself has every span where it has it.
-/

set_option autoImplicit false

namespace Templating

/-! ## Sorted tables

The search is a binary one in practice and a linear one here; both find the point at which a condition
stops to hold.  Where an offset is itself in the table of lines, it is found by equality first. -/

/-- The point is where the elements that satisfy the condition end. -/
theorem partitionPoint_append {α : Type} {p : α → Bool} {l l' : List α} (h : ∀ a ∈ l, p a = true)
    (h' : ∀ a ∈ l', p a = false) : partitionPoint p (l ++ l') = l.length := by
  have hrest : l'.takeWhile p = [] := by
    cases l' with
    | nil => rfl
    | cons a l' => exact List.takeWhile_cons_of_neg (by simp [h' a])
  rw [partitionPoint, List.takeWhile_append_of_pos h, hrest, List.append_nil]

/-- In a sorted table, an element that is there stands where the smaller ones end. -/
theorem eq_append_singleton_of_mem {l : List Nat} {n : Nat} (hsorted : l.Pairwise (· < ·))
    (hle : ∀ a ∈ l, a ≤ n) (hmem : n ∈ l) : ∃ front, l = front ++ [n] ∧ ∀ a ∈ front, a < n := by
  obtain ⟨front, back, rfl⟩ := List.append_of_mem hmem
  obtain ⟨-, hback, hfront⟩ := List.pairwise_append.1 hsorted
  have hnil : back = [] := by
    refine List.eq_nil_iff_forall_not_mem.2 fun a ha => ?_
    have hlt : n < a := (List.pairwise_cons.1 hback).1 a ha
    have hle := hle a (List.mem_append_right _ (List.mem_cons_of_mem _ ha))
    omega
  subst hnil
  exact ⟨front, rfl, fun a ha => hfront a ha n (List.mem_cons_self ..)⟩

/-- An element is found where it comes up first. -/
theorem idxOf?_append_cons {l l' : List Nat} {n : Nat} (h : n ∉ l) :
    (l ++ n :: l').idxOf? n = some l.length := by
  induction l with
  | nil => rw [List.nil_append, List.idxOf?_cons, if_pos (beq_self_eq_true n), List.length_nil]
  | cons a l ih =>
    obtain ⟨hne, hl⟩ := not_or.1 (fun hmem => h (List.mem_cons.2 hmem))
    rw [List.cons_append, List.idxOf?_cons, if_neg (by simpa using Ne.symm hne), ih hl]
    rfl

/-! ## Lines

The starts of lines are the offsets behind line breaks, and 0.  They are strictly increasing, so that
for an offset either a line starts there or it lies between two starts.  Both cases count the same line
breaks. -/

namespace Text

/-- The breaks of a text are those of its parts, the second one moved by the size of the first. -/
theorem breaksFrom_append (n : Nat) (s t : Text) :
    breaksFrom n (s ++ t) = breaksFrom n s ++ breaksFrom (n + s.size) t := by
  induction s generalizing n with
  | nil => rfl
  | cons c s ih =>
    rw [List.cons_append, breaksFrom, breaksFrom, size_cons, ← Nat.add_assoc, ih]
    split
    · rfl
    · rfl

/-- There are as many offsets as there are line breaks. -/
theorem length_breaksFrom (n : Nat) (t : Text) : (breaksFrom n t).length = t.count '\n' := by
  induction t generalizing n with
  | nil => rfl
  | cons c t ih =>
    rw [breaksFrom]
    by_cases h : c = '\n'
    · rw [if_pos h, List.length_cons, ih, h, List.count_cons_self]
    · rw [if_neg h, ih, List.count_cons_of_ne h]

/-- A break lies inside the text. -/
theorem mem_breaksFrom {n i : Nat} {t : Text} (h : i ∈ breaksFrom n t) : n ≤ i ∧ i < n + t.size := by
  induction t generalizing n with
  | nil => simp [breaksFrom] at h
  | cons c t ih =>
    have hc := c.utf8Size_pos
    rw [size_cons]
    rw [breaksFrom] at h
    split at h
    · rcases List.mem_cons.1 h with rfl | h
      · omega
      · have := ih h
        omega
    · have := ih h
      omega

/-- Each break is behind the one before it, as a character takes up at least a byte. -/
theorem pairwise_breaksFrom (n : Nat) (t : Text) : (breaksFrom n t).Pairwise (· < ·) := by
  induction t generalizing n with
  | nil => exact .nil
  | cons c t ih =>
    rw [breaksFrom]
    split
    · refine List.pairwise_cons.2 ⟨fun i hi => ?_, ih _⟩
      exact Nat.lt_of_lt_of_le (Nat.lt_add_of_pos_right c.utf8Size_pos) (mem_breaksFrom hi).1
    · exact ih _

/-- The lines that start in a part at the front of a text. -/
theorem lineStarts_append (s t : Text) :
    lineStarts (s ++ t) = lineStarts s ++ (breaksFrom s.size t).map (· + 1) := by
  rw [lineStarts, breaksFrom_append, List.map_append, Nat.zero_add]
  rfl

/-- The table of lines is sorted. -/
theorem pairwise_lineStarts (t : Text) : t.lineStarts.Pairwise (· < ·) := by
  refine List.pairwise_cons.2 ⟨fun i hi => ?_, ?_⟩
  · obtain ⟨j, -, rfl⟩ := List.mem_map.1 hi
    exact Nat.succ_pos j
  · exact (pairwise_breaksFrom 0 t).map _ fun _ _ => Nat.succ_lt_succ

/-- No line starts behind the end of the text. -/
theorem le_of_mem_lineStarts {t : Text} {i : Nat} (h : i ∈ t.lineStarts) : i ≤ t.size := by
  rcases List.mem_cons.1 h with rfl | h
  · exact Nat.zero_le _
  · obtain ⟨j, hj, rfl⟩ := List.mem_map.1 h
    have := (mem_breaksFrom hj).2
    omega

end Text

/-- The line of an offset is the number of line breaks before it, counted from 1. -/
theorem SourceFile.lineOf_append {f : SourceFile} {front back : Text} (h : f.text = front ++ back) :
    f.lineOf front.size = 1 + front.count '\n' := by
  have hlength : front.lineStarts.length = 1 + front.count '\n' := by
    rw [Text.lineStarts, List.length_cons, List.length_map, Text.length_breaksFrom, Nat.add_comm]
  have hback : ∀ i ∈ (Text.breaksFrom front.size back).map (· + 1), front.size < i := by
    intro i hi
    obtain ⟨j, hj, rfl⟩ := List.mem_map.1 hi
    exact Nat.lt_succ_of_le (Text.mem_breaksFrom hj).1
  rw [lineOf, h, Text.lineStarts_append, ← hlength]
  by_cases hmem : front.size ∈ front.lineStarts
  · -- A line starts there, and it is the last one that starts in `front`.
    obtain ⟨earlier, hearlier, hlt⟩ := eq_append_singleton_of_mem front.pairwise_lineStarts
      (fun i hi => Text.le_of_mem_lineStarts hi) hmem
    have hnot : front.size ∉ earlier := fun h => Nat.lt_irrefl _ (hlt _ h)
    rw [hearlier, List.append_assoc, List.singleton_append, idxOf?_append_cons hnot,
      List.length_append, List.length_singleton]
  · -- No line starts there: the line is the last one that starts before.
    have hnone : (front.lineStarts ++ (Text.breaksFrom front.size back).map (· + 1)).idxOf? front.size
        = none := by
      refine List.idxOf?_eq_none_iff.2 fun h => ?_
      rcases List.mem_append.1 h with h | h
      · exact hmem h
      · exact Nat.lt_irrefl _ (hback _ h)
    rw [hnone]
    refine partitionPoint_append (fun i hi => ?_) (fun i hi => ?_)
    · have hle := Text.le_of_mem_lineStarts hi
      have hne : i ≠ front.size := fun h => hmem (h ▸ hi)
      exact decide_eq_true (Nat.lt_of_le_of_ne hle hne)
    · exact decide_eq_false (Nat.not_lt.2 (Nat.le_of_lt (hback i hi)))

/-! ## Segments

The table of segments has the pieces of a document with the offsets where they start.  Pieces may be
empty, so the starts need not be strictly increasing, and of several pieces at one offset the last one
counts.  An offset inside a piece is always looked up as that piece, since the next one starts behind
it. -/

namespace Segment

/-- The table of a row of pieces is made of the tables of its parts. -/
theorem table_append (n : Nat) (ps qs : List Piece) :
    table n (ps ++ qs) = table n ps ++ table (n + Text.size (ps.flatMap Piece.text)) qs := by
  induction ps generalizing n with
  | nil => rfl
  | cons p ps ih =>
    rw [List.cons_append, table, ih, List.flatMap_cons, Text.size_append, ← Nat.add_assoc]
    rfl

/-- A segment starts between the beginning and the end of the text of the table. -/
theorem start_of_mem_table {n : Nat} {ps : List Piece} {segment : Segment}
    (h : segment ∈ table n ps) :
    n ≤ segment.start ∧ segment.start ≤ n + Text.size (ps.flatMap Piece.text) := by
  induction ps generalizing n with
  | nil => simp [table] at h
  | cons p ps ih =>
    rw [List.flatMap_cons, Text.size_append]
    rcases List.mem_cons.1 h with rfl | h
    · exact ⟨Nat.le_refl _, Nat.le_add_right _ _⟩
    · have := ih h
      omega

end Segment

/-- An offset inside a piece is looked up as that piece. -/
theorem Document.segmentAt?_of_append {d : Document} {before after : List Piece} {p : Piece} {n : Nat}
    (hd : d.pieces = before ++ p :: after) (hstart : Text.size (before.flatMap Piece.text) ≤ n)
    (hstop : n < Text.size (before.flatMap Piece.text) + p.text.size) :
    d.segmentAt? n = some ⟨Text.size (before.flatMap Piece.text), p⟩ := by
  have htable : d.segments = (Segment.table 0 before ++
      [⟨Text.size (before.flatMap Piece.text), p⟩]) ++
      Segment.table (Text.size (before.flatMap Piece.text) + p.text.size) after := by
    rw [segments, hd, Segment.table_append, Nat.zero_add, List.append_assoc]
    rfl
  -- Everything up to the piece starts at or before the offset, everything behind it starts later.
  have hpoint : partitionPoint (·.start ≤ n) d.segments = (Segment.table 0 before).length + 1 := by
    rw [htable, partitionPoint_append, List.length_append, List.length_singleton]
    · intro segment hsegment
      rcases List.mem_append.1 hsegment with h | h
      · have hle := (Segment.start_of_mem_table h).2
        exact decide_eq_true (by omega)
      · obtain rfl := List.mem_singleton.1 h
        exact decide_eq_true hstart
    · intro segment hsegment
      have hle := (Segment.start_of_mem_table hsegment).1
      exact decide_eq_false (by omega)
  rw [segmentAt?, hpoint, htable, Nat.add_sub_cancel, List.append_assoc,
    List.getElem?_append_right (Nat.le_refl _), Nat.sub_self]
  rfl

/-- In a document that is one file, a span is where it is in the file. -/
theorem Document.locate_ofSource {path : Path} {text : Text} {span : Span}
    (h : text.HasSpan span) :
    (Document.ofSource path text).locate span = SourceFile.locate ⟨path, text⟩ span := by
  have hle := h.order
  have hstop := h.stop.le
  -- The document of an empty file has no segments at all, and answers with the start of the file.
  by_cases htext : text = []
  · subst htext
    obtain ⟨start, stop⟩ := span
    obtain ⟨rfl, rfl⟩ : start = 0 ∧ stop = 0 := by
      simp at hle hstop
      omega
    rfl
  · have hpieces : (Document.ofSource path text).pieces
        = [⟨text, ⟨path, text⟩, ⟨0, text.size⟩, false, []⟩] := by
      rw [ofSource, Piece.copied]
      dsimp only
      rw [Text.slice_full, if_neg htext]
    have hsegment : (Document.ofSource path text).segmentAt? span.start
        = some ⟨0, ⟨text, ⟨path, text⟩, ⟨0, text.size⟩, false, []⟩⟩ := by
      rw [segmentAt?, segments, hpieces]
      simp [Segment.table, partitionPoint]
    rw [locate, hsegment]
    simp only [Segment.locate, Span.size, Bool.false_eq_true, if_false, Nat.zero_add, Nat.sub_zero]
    congr 1
    rw [Nat.add_sub_cancel' hle, Nat.min_eq_left hstop, Nat.max_eq_right hle]

end Templating
