import Templating.Text.Basic

/-!
# The lines of a text

A text is cut into lines at its line breaks.  What is put together with a line break in between has the
lines of both parts, and a text is its lines with line breaks in between.

## What is here

* `Text.lines_append_break` and `Text.lines_of_not_mem` say what the lines of a text are, and
  `Text.exists_line_iff` whether one of them starts with a mark.
* `Text.plainBreaks` is a text without the carriage returns that end its lines;
  `Text.plainBreaks_eq_intercalate` takes it line by line, and `Text.plainBreaks_eq_self_iff` says which
  texts it leaves alone.
-/

set_option autoImplicit false

namespace Templating
namespace Text

/-! ## Lines

A text has one line more than it has line breaks; the last one is empty if the text ends in a break.
Lines are kept without their breaks, so no line has one in it. -/

/-- The segments between separators have none in them. -/
theorem not_mem_of_mem_splitOn {x : Char} {t segment : Text} (h : segment ∈ t.splitOn x) :
    x ∉ segment := by
  induction t generalizing segment with
  | nil => rw [List.splitOn_nil, List.mem_singleton] at h; simp [h]
  | cons c t ih =>
    rw [List.splitOn_cons_eq_if_modifyHead] at h
    split at h
    · rcases List.mem_cons.1 h with rfl | h
      · exact List.not_mem_nil
      · exact ih h
    · next hc =>
      obtain ⟨first, others, hsplit⟩ := List.exists_cons_of_ne_nil (List.splitOn_ne_nil x t)
      rw [hsplit] at h ih
      rcases List.mem_cons.1 h with rfl | h
      · have hfirst := ih (List.mem_cons_self ..)
        rw [List.mem_cons, not_or]
        exact ⟨fun hx => hc (by simp [hx]), hfirst⟩
      · exact ih (List.mem_cons_of_mem _ h)

/-- Even the empty text has a line. -/
theorem lines_nil : lines [] = [[]] := List.splitOn_nil _

theorem lines_ne_nil (t : Text) : lines t ≠ [] := List.splitOn_ne_nil '\n' t

/-- Two texts with a line break in between. -/
theorem lines_append_break (s t : Text) : lines (s ++ '\n' :: t) = lines s ++ lines t :=
  List.splitOn_append_cons_self s t

theorem lines_cons_break (t : Text) : lines ('\n' :: t) = [] :: lines t := lines_append_break [] t

theorem break_not_mem_of_mem_lines {t line : Text} (h : line ∈ lines t) : '\n' ∉ line :=
  not_mem_of_mem_splitOn h

/-- A text that does not start with a line break has its first character on its first line. -/
theorem lines_cons {c : Char} (hc : c ≠ '\n') (t : Text) :
    ∃ line rest, lines t = line :: rest ∧ lines (c :: t) = (c :: line) :: rest := by
  obtain ⟨line, rest, hlines⟩ := List.exists_cons_of_ne_nil (List.splitOn_ne_nil '\n' t)
  refine ⟨line, rest, hlines, ?_⟩
  rw [lines, List.splitOn_cons_eq_if_modifyHead, if_neg (by simpa using hc), hlines,
    List.modifyHead_cons]

/-! ## Marks at the start of a line

A mark without a line break in it lies on one line.  At the start of the first line it is at the start
of the text; at the start of any other there is a line break in front of it. -/

/-- The start of the text is the start of its first line. -/
theorem prefix_iff_of_lines {mark t line : Text} {rest : List Text} (hmark : '\n' ∉ mark)
    (h : lines t = line :: rest) : mark <+: t ↔ mark <+: line := by
  induction t generalizing mark line rest with
  | nil =>
    rw [lines_nil] at h
    rw [(List.cons.inj h).1]
  | cons c t ih =>
    cases mark with
    | nil => simp
    | cons m mark =>
      rw [List.mem_cons, not_or] at hmark
      by_cases hc : c = '\n'
      · subst hc
        rw [lines_cons_break] at h
        rw [← (List.cons.inj h).1]
        simp [List.cons_prefix_cons, Ne.symm hmark.1]
      · obtain ⟨line', rest', hlines, hcons⟩ := lines_cons hc t
        rw [hcons] at h
        rw [← (List.cons.inj h).1, List.cons_prefix_cons, List.cons_prefix_cons, ih hmark.2 hlines]

/-- Behind a line break is the start of another line. -/
theorem infix_break_iff_of_lines {mark t line : Text} {rest : List Text} (hmark : '\n' ∉ mark)
    (h : lines t = line :: rest) : '\n' :: mark <:+: t ↔ ∃ line ∈ rest, mark <+: line := by
  induction t generalizing line rest with
  | nil =>
    rw [lines_nil] at h
    simp [← (List.cons.inj h).2]
  | cons c t ih =>
    rw [List.infix_cons_iff]
    by_cases hc : c = '\n'
    · subst hc
      obtain ⟨line', rest', hlines⟩ := List.exists_cons_of_ne_nil (lines_ne_nil t)
      rw [lines_cons_break] at h
      rw [← (List.cons.inj h).2, hlines, List.cons_prefix_cons, and_iff_right rfl,
        prefix_iff_of_lines hmark hlines, ih hlines]
      simp only [List.mem_cons, exists_eq_or_imp]
    · obtain ⟨line', rest', hlines, hcons⟩ := lines_cons hc t
      rw [hcons] at h
      rw [← (List.cons.inj h).2, ← ih hlines, List.cons_prefix_cons]
      simp [Ne.symm hc]

/-- A line starts with a mark if the text does or the mark comes behind a line break. -/
theorem exists_line_iff {mark t : Text} (hmark : '\n' ∉ mark) :
    (∃ line ∈ lines t, mark <+: line) ↔ mark <+: t ∨ '\n' :: mark <:+: t := by
  obtain ⟨line, rest, hlines⟩ := List.exists_cons_of_ne_nil (lines_ne_nil t)
  rw [hlines, prefix_iff_of_lines hmark hlines, infix_break_iff_of_lines hmark hlines]
  simp only [List.mem_cons, exists_eq_or_imp]

/-! ## Line breaks without carriage returns

One carriage return is dropped at the end of each line, if there is one there.  On the text as a whole
that is to drop those before a line break, and one at the very end; a second one in front of it stays. -/

/-- What is left of a line is its front. -/
theorem chomp_prefix (t : Text) : chomp t <+: t := by
  rw [chomp]
  split
  · exact List.dropLast_prefix t
  · exact List.prefix_refl t

/-- Only the last character can be dropped. -/
theorem chomp_cons {c : Char} {t : Text} (h : ¬ (c = '\r' ∧ t = [])) :
    chomp (c :: t) = c :: chomp t := by
  cases t with
  | nil =>
    have hc : c ≠ '\r' := fun hc => h ⟨hc, rfl⟩
    simp [chomp, hc]
  | cons d t =>
    rw [chomp, chomp, List.getLast?_cons_cons, List.dropLast_cons_cons]
    split
    · rfl
    · rfl

/-- A text without the carriage returns that stand right before a line break or at the very end. -/
def plainBreaks : Text → Text
  | [] => []
  | c :: t =>
    if c = '\r' ∧ (t = [] ∨ t.head? = some '\n') then plainBreaks t else c :: plainBreaks t

/-- The first line of a text is empty if the text is, or if it starts with a line break. -/
theorem eq_nil_or_head?_of_lines {t : Text} {rest : List Text} (h : lines t = [] :: rest) :
    t = [] ∨ t.head? = some '\n' := by
  cases t with
  | nil => exact .inl rfl
  | cons c t =>
    by_cases hc : c = '\n'
    · exact .inr (by rw [hc]; rfl)
    · obtain ⟨line, rest', -, hlines⟩ := lines_cons hc t
      rw [hlines] at h
      cases h

/-- Line by line, one carriage return at the end is dropped. -/
theorem plainBreaks_eq_intercalate (t : Text) :
    plainBreaks t = ['\n'].intercalate (t.lines.map chomp) := by
  induction t with
  | nil => simp [plainBreaks, lines_nil, chomp]
  | cons c t ih =>
    have hne : (lines t).map chomp ≠ [] := fun h => lines_ne_nil t (List.map_eq_nil_iff.1 h)
    by_cases hc : c = '\n'
    · subst hc
      rw [plainBreaks, if_neg (by simp), ih, lines_cons_break, List.map_cons,
        List.intercalate_cons_of_ne_nil hne]
      rfl
    · obtain ⟨line, rest, hlines, hcons⟩ := lines_cons hc t
      rw [plainBreaks, ih, hlines, hcons, List.map_cons, List.map_cons]
      by_cases hend : c = '\r' ∧ line = []
      · obtain ⟨rfl, rfl⟩ := hend
        rw [if_pos ⟨rfl, eq_nil_or_head?_of_lines hlines⟩]
        rfl
      · have hkept : ¬ (c = '\r' ∧ (t = [] ∨ t.head? = some '\n')) := by
          rintro ⟨rfl, rfl | hhead⟩
          · exact hend ⟨rfl, (List.cons.inj hlines).1.symm⟩
          · obtain ⟨t, rfl⟩ := List.head?_eq_some_iff.1 hhead
            rw [lines_cons_break] at hlines
            exact hend ⟨rfl, (List.cons.inj hlines).1.symm⟩
        rw [if_neg hkept, chomp_cons hend, List.intercalate_cons_cons_left]

/-- Nothing is added. -/
theorem length_plainBreaks_le (t : Text) : (plainBreaks t).length ≤ t.length := by
  induction t with
  | nil => exact Nat.le_refl _
  | cons c t ih =>
    rw [plainBreaks]
    split
    · exact Nat.le_succ_of_le ih
    · exact Nat.succ_le_succ ih

/-- What is left alone has no carriage return at the end of a line. -/
theorem plainBreaks_eq_self_iff {t : Text} :
    plainBreaks t = t ↔ ¬ ['\r', '\n'] <:+: t ∧ t.getLast? ≠ some '\r' := by
  induction t with
  | nil => simp [plainBreaks]
  | cons c t ih =>
    have hbreak : ['\r', '\n'] <+: c :: t ↔ c = '\r' ∧ t.head? = some '\n' := by
      cases t with
      | nil => simp
      | cons d t => simp [List.cons_prefix_cons, eq_comm]
    have hlast : (c :: t).getLast? = some '\r' ↔ (c = '\r' ∧ t = []) ∨ t.getLast? = some '\r' := by
      cases t with
      | nil => simp
      | cons d t => simp [List.getLast?_cons_cons]
    rw [plainBreaks, List.infix_cons_iff, hbreak, ne_eq, hlast]
    split
    · next hdropped =>
      have hlen := length_plainBreaks_le t
      refine ⟨fun h => ?_, fun h => ?_⟩
      · rw [h] at hlen
        exact absurd hlen (by simp)
      · rcases hdropped.2 with hnil | hhead
        · exact absurd (.inl ⟨hdropped.1, hnil⟩) h.2
        · exact absurd (.inl ⟨hdropped.1, hhead⟩) h.1
    · next hkept =>
      rw [List.cons.injEq, ih]
      grind

end Text
end Templating
