/-!
# Texts, byte offsets and spans

A text is the list of its characters.  Offsets into it count bytes of its UTF-8 form, because that
is what locations in error messages are measured in.

## What is here

* `Text.size`, `Text.takeBytes`, `Text.dropBytes` and `Text.slice` measure and cut a text by bytes.
* `Text.cut?` splits a text at the first occurrence of a mark.
* `Text.lines` and `Text.chomp` read a text line by line; `Text.dropBreak` and `Text.dropFinalBreak`
  drop a line break at either end.
* `Span` is a range of byte offsets.
-/

set_option autoImplicit false

namespace Templating

/-- A text, character by character. -/
abbrev Text := List Char

/-- A half-open range of byte offsets. -/
structure Span where
  start : Nat
  stop : Nat
  deriving DecidableEq, Repr, Inhabited

namespace Span

/-- The number of bytes in a span; an inverted span has none. -/
def size (s : Span) : Nat := s.stop - s.start

/-- The span moved `n` bytes to the right. -/
def shift (s : Span) (n : Nat) : Span := ⟨s.start + n, s.stop + n⟩

end Span

namespace Text

/-! ## Measuring and cutting by bytes -/

/-- The length of a text in bytes of its UTF-8 form. -/
def size : Text → Nat
  | [] => 0
  | c :: t => c.utf8Size + size t

@[simp] theorem size_nil : size [] = 0 := rfl

@[simp] theorem size_cons (c : Char) (t : Text) : size (c :: t) = c.utf8Size + size t := rfl

@[simp] theorem size_append (s t : Text) : size (s ++ t) = size s + size t := by
  induction s with
  | nil => simp
  | cons c s ih => simp [ih, Nat.add_assoc]

theorem size_pos {t : Text} (h : t ≠ []) : 0 < size t := by
  cases t with
  | nil => exact absurd rfl h
  | cons c t => exact Nat.lt_of_lt_of_le c.utf8Size_pos (Nat.le_add_right _ _)

theorem size_eq_zero_iff {t : Text} : size t = 0 ↔ t = [] := by
  refine ⟨fun h => ?_, fun h => h ▸ rfl⟩
  rcases Decidable.em (t = []) with ht | ht
  · exact ht
  · exact absurd h (Nat.pos_iff_ne_zero.1 (size_pos ht))

/-- The longest part at the front of a text that has at most `n` bytes. -/
def takeBytes : Nat → Text → Text
  | _, [] => []
  | n, c :: t => if c.utf8Size ≤ n then c :: takeBytes (n - c.utf8Size) t else []

/-- What is left of a text once at least `n` bytes are gone. -/
def dropBytes : Nat → Text → Text
  | 0, t => t
  | _, [] => []
  | n + 1, c :: t => dropBytes (n + 1 - c.utf8Size) t

/-- The part of a text that a span names. -/
def slice (t : Text) (s : Span) : Text := takeBytes s.size (dropBytes s.start t)

@[simp] theorem dropBytes_zero (t : Text) : dropBytes 0 t = t := by cases t <;> rfl

theorem dropBytes_append_of_size (s t : Text) : dropBytes (size s) (s ++ t) = t := by
  induction s with
  | nil => simp
  | cons c s ih =>
    have hc := c.utf8Size_pos
    obtain ⟨n, hn⟩ : ∃ n, size (c :: s) = n + 1 := ⟨c.utf8Size + size s - 1, by simp; omega⟩
    rw [hn, List.cons_append, dropBytes, ← hn]
    simpa using ih

theorem takeBytes_append_of_size (s t : Text) : takeBytes (size s) (s ++ t) = s := by
  induction s with
  | nil =>
    cases t with
    | nil => rfl
    | cons c t => simp [takeBytes, Nat.pos_iff_ne_zero.1 c.utf8Size_pos]
  | cons c s ih => simp [takeBytes, ih]

/-- Cutting out the middle of three texts. -/
theorem slice_append (a b c : Text) : slice (a ++ b ++ c) ⟨size a, size a + size b⟩ = b := by
  rw [slice, List.append_assoc, dropBytes_append_of_size]
  simpa [Span.size] using takeBytes_append_of_size b c

/-! ## Marks -/

/-- What follows `mark` in a text that starts with it. -/
def after? : Text → Text → Option Text
  | [], t => some t
  | _ :: _, [] => none
  | m :: mark, c :: t => if m = c then after? mark t else none

/-- What stands before and after the first occurrence of `mark`. -/
def cut? (mark : Text) : Text → Option (Text × Text)
  | [] => if mark = [] then some ([], []) else none
  | c :: t =>
    match after? mark (c :: t) with
    | some rest => some ([], rest)
    | none => (cut? mark t).map fun (before, rest) => (c :: before, rest)

/-- Whether `mark` occurs in a text. -/
def has (t mark : Text) : Bool := (cut? mark t).isSome

@[simp] theorem after?_eq_some_iff {mark t rest : Text} :
    after? mark t = some rest ↔ t = mark ++ rest := by
  induction mark generalizing t with
  | nil => simp [after?]
  | cons m mark ih =>
    cases t with
    | nil => simp [after?]
    | cons c t =>
      by_cases h : m = c
      · simp [after?, h, ih]
      · simp [after?, h, Ne.symm h]

theorem cut?_eq_some {mark t a b : Text} (h : cut? mark t = some (a, b)) : t = a ++ mark ++ b := by
  induction t generalizing a b with
  | nil =>
    unfold cut? at h
    split at h <;> simp_all
  | cons c t ih =>
    unfold cut? at h
    split at h
    · next rest hr => simp_all
    · obtain ⟨⟨a', b'⟩, h', heq⟩ := Option.map_eq_some_iff.1 h
      simp only [Prod.mk.injEq] at heq
      rw [ih h', ← heq.1, ← heq.2]
      simp

/-! ## Lines -/

/-- The lines of a text; a line break at the end opens one more, empty line. -/
def lines (t : Text) : List Text := t.splitOn '\n'

/-- A line without one carriage return at its end. -/
def chomp (t : Text) : Text := if t.getLast? = some '\r' then t.dropLast else t

/-- A text without one line break at its front. -/
def dropBreak : Text → Text
  | '\r' :: '\n' :: t => t
  | '\n' :: t => t
  | t => t

/-- A text without one line break at its end. -/
def dropFinalBreak (t : Text) : Text := if t.getLast? = some '\n' then chomp t.dropLast else t

theorem length_dropBreak_le (t : Text) : (dropBreak t).length ≤ t.length := by
  unfold dropBreak
  split
  · exact Nat.le_add_right _ 2
  · exact Nat.le_add_right _ 1
  · exact Nat.le_refl _

/-- The offsets of the line breaks in a text that starts at offset `n`. -/
def breaksFrom : Nat → Text → List Nat
  | _, [] => []
  | n, c :: t =>
    if c = '\n' then n :: breaksFrom (n + c.utf8Size) t else breaksFrom (n + c.utf8Size) t

/-- The offsets that the lines of a text start at. -/
def lineStarts (t : Text) : List Nat := 0 :: (breaksFrom 0 t).map (· + 1)

end Text

end Templating
