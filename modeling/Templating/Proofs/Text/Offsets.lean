import Templating.Text.Basic

/-!
# Offsets at character boundaries

An offset into a text counts bytes, so not every one of them falls between two characters.  Those
that do are the lengths of the parts at the front of the text, and cutting at them loses nothing.

## What is here

* `Text.Boundary` is an offset between two characters; `Text.Boundary.of_append_left` measures it from
  a later start.
* `Text.append_inj_of_size` says that a boundary cuts a text in one way.
* `Text.slice_eq` and `Text.slice_inner` cut known parts out of a text.
* `Text.HasSpan` is a span with both ends at boundaries.
-/

set_option autoImplicit false

namespace Templating
namespace Text

/-! ## Boundaries

A boundary is given by the text in front of it.  That text is known from the offset, since no two
beginnings of a text have the same size. -/

/-- Whether an offset falls between two characters of a text, or at one of its ends. -/
def Boundary (t : Text) (n : Nat) : Prop := ∃ front back, t = front ++ back ∧ size front = n

/-- A text is cut at an offset in one way. -/
theorem append_inj_of_size {a b c d : Text} (h : a ++ b = c ++ d) (hsize : size a = size c) :
    a = c ∧ b = d := by
  have ha : takeBytes (size a) (a ++ b) = a := takeBytes_append_of_size a b
  have hc : takeBytes (size c) (c ++ d) = c := takeBytes_append_of_size c d
  have heq : a = c := by rw [← ha, h, hsize, hc]
  subst heq
  exact ⟨rfl, List.append_cancel_left h⟩

/-- The longer of two parts at the front of a text starts with the shorter one. -/
theorem exists_append_of_size_le {a b c d : Text} (h : a ++ b = c ++ d) (hsize : size a ≤ size c) :
    ∃ e, c = a ++ e ∧ b = e ++ d := by
  rcases List.append_eq_append_iff.1 h with ⟨e, hc, hb⟩ | ⟨e, ha, hd⟩
  · exact ⟨e, hc, hb⟩
  · have he : size e = 0 := by
      rw [ha, size_append] at hsize
      omega
    rw [size_eq_zero_iff] at he
    subst he
    exact ⟨[], by simpa using ha.symm, by simpa using hd.symm⟩

/-- A text can be cut where two texts were put together. -/
theorem boundary_append (front back : Text) : Boundary (front ++ back) (size front) :=
  ⟨front, back, rfl, rfl⟩

/-- No boundary is behind the end. -/
theorem Boundary.le {t : Text} {n : Nat} (h : Boundary t n) : n ≤ size t := by
  obtain ⟨front, back, rfl, rfl⟩ := h
  rw [size_append]
  exact Nat.le_add_right _ _

/-- A boundary in the second of two texts. -/
theorem Boundary.of_append_left {s t : Text} {n : Nat} (h : Boundary (s ++ t) n) (hn : size s ≤ n) :
    Boundary t (n - size s) := by
  obtain ⟨front, back, heq, rfl⟩ := h
  obtain ⟨e, rfl, rfl⟩ := exists_append_of_size_le heq hn
  exact ⟨e, back, rfl, by rw [size_append]; omega⟩

/-- A boundary in the first of two texts. -/
theorem Boundary.of_append_right {s t : Text} {n : Nat} (h : Boundary (s ++ t) n) (hn : n ≤ size s) :
    Boundary s n := by
  obtain ⟨front, back, heq, rfl⟩ := h
  obtain ⟨e, rfl, -⟩ := exists_append_of_size_le heq.symm hn
  exact ⟨front, e, rfl, rfl⟩

/-! ## Slices

What a slice is depends on offsets only; these lemmas say it of texts whose parts are known. -/

/-- A part in the middle is the slice between its ends. -/
theorem slice_eq {t a b c : Text} {s : Span} (h : t = a ++ b ++ c) (hstart : s.start = size a)
    (hstop : s.stop = size a + size b) : slice t s = b := by
  have hs : s = ⟨size a, size a + size b⟩ := by rw [← hstop, ← hstart]
  rw [h, hs]
  exact slice_append a b c

/-- The rest of a text behind its front. -/
theorem slice_rest {t front rest : Text} (h : t = front ++ rest) :
    slice t ⟨size front, size t⟩ = rest :=
  slice_eq (c := []) (by simpa using h) rfl (by rw [h, size_append])

/-- A slice of a part in the middle of a text is a slice of the text. -/
theorem slice_inner {a b c : Text} {n m : Nat} (hn : Boundary b n) (hm : Boundary b m) (h : n ≤ m) :
    slice (a ++ b ++ c) ⟨size a + n, size a + m⟩ = slice b ⟨n, m⟩ := by
  obtain ⟨front, back, rfl, rfl⟩ := hn
  obtain ⟨front', back', heq, rfl⟩ := hm
  obtain ⟨e, rfl, rfl⟩ := exists_append_of_size_le heq h
  have hinner : slice (front ++ (e ++ back')) ⟨size front, size (front ++ e)⟩ = e :=
    slice_eq (by simp : _ = front ++ e ++ back') rfl (by simp)
  rw [hinner]
  refine slice_eq (a := a ++ front) (c := back' ++ c) (by simp) (by simp) ?_
  rw [size_append, size_append, Nat.add_assoc]

/-! ## Spans

A span has a text, the part that it covers, only if both of its ends are boundaries. -/

/-- A span of a text that begins and ends between two characters, or at an end of the text. -/
def HasSpan (t : Text) (span : Span) : Prop :=
  ∃ a b c, t = a ++ b ++ c ∧ span = ⟨size a, size a + size b⟩

namespace HasSpan

variable {t : Text} {span : Span}

/-- Two boundaries in order make a span. -/
theorem of_boundaries (hstart : Boundary t span.start) (hstop : Boundary t span.stop)
    (hle : span.start ≤ span.stop) : HasSpan t span := by
  obtain ⟨a, rest, rfl, ha⟩ := hstart
  obtain ⟨front, c, heq, hfront⟩ := hstop
  obtain ⟨b, rfl, rfl⟩ := exists_append_of_size_le heq (by omega)
  refine ⟨a, b, c, by rw [List.append_assoc], ?_⟩
  rw [size_append] at hfront
  rw [hfront, ha]

/-- A span ends behind its start. -/
theorem order (h : HasSpan t span) : span.start ≤ span.stop := by
  obtain ⟨a, b, c, -, rfl⟩ := h
  exact Nat.le_add_right _ _

/-- It starts at a boundary. -/
theorem start (h : HasSpan t span) : Boundary t span.start := by
  obtain ⟨a, b, c, rfl, rfl⟩ := h
  rw [List.append_assoc]
  exact boundary_append a (b ++ c)

/-- It stops at a boundary. -/
theorem stop (h : HasSpan t span) : Boundary t span.stop := by
  obtain ⟨a, b, c, rfl, rfl⟩ := h
  rw [← size_append]
  exact boundary_append (a ++ b) c

/-- A span of a part is one of the whole. -/
theorem inside (h : HasSpan t span) (front back : Text) :
    HasSpan (front ++ t ++ back) ⟨front.size + span.start, front.size + span.stop⟩ := by
  obtain ⟨a, b, c, rfl, rfl⟩ := h
  refine ⟨front ++ a, b, c ++ back, by simp only [List.append_assoc], ?_⟩
  rw [size_append, Nat.add_assoc]

/-- What a span has of a part of the text that it starts in. -/
theorem middle {front middle back : Text} (h : HasSpan (front ++ middle ++ back) span)
    (hstart : front.size ≤ span.start) (hstop : span.start ≤ front.size + middle.size) :
    HasSpan middle ⟨span.start - front.size,
      min span.stop (front.size + middle.size) - front.size⟩ := by
  have hle := h.order
  have hbegin := h.start
  have hend := h.stop
  rw [List.append_assoc] at hbegin hend
  refine of_boundaries ?_ ?_ (by dsimp only; omega)
  · exact (hbegin.of_append_left hstart).of_append_right (by omega)
  · by_cases hover : span.stop ≤ front.size + middle.size
    · rw [Nat.min_eq_left hover]
      exact (hend.of_append_left (by omega)).of_append_right (by omega)
    · rw [Nat.min_eq_right (by omega), Nat.add_sub_cancel_left]
      exact ⟨middle, [], by simp, rfl⟩

end HasSpan

/-- The slice from one end to the other is the text. -/
theorem slice_full (t : Text) : slice t ⟨0, size t⟩ = t :=
  slice_eq (a := []) (c := []) (by simp) rfl (by simp)

end Text
end Templating
