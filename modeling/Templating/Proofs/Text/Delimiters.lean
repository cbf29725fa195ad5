import Templating.Grammar
import Templating.Proofs.Text.Marks

/-!
# Delimiters in texts

A delimiter is two characters, one of which is a percent sign.  Texts that have none of them, and texts
that have no character of them, are met everywhere: between tags, on the line of a directive, in the
markers around included files.  What matters is when such texts can be put together.

## What is here

* `Text.Bare` is a text without any character of a delimiter, `Text.Plain` a text without a delimiter.
* `Text.Seam` says that no delimiter lies across the seam of two texts; then plain texts can be put
  together (`Text.Plain.append`).
-/

set_option autoImplicit false

namespace Templating

/-! ## Texts without delimiters

To have no character of a delimiter is more than to have no delimiter, but it is easy to see of a text,
and it makes no difference what the text is next to. -/

/-- A text without any of the characters that delimiters are made of. -/
def Text.Bare (t : Text) : Prop := ∀ c ∈ t, c ≠ '<' ∧ c ≠ '%' ∧ c ≠ '>'

instance (t : Text) : Decidable t.Bare :=
  decidable_of_iff (t.all fun c => c ≠ '<' && c ≠ '%' && c ≠ '>') (by
    simp only [Text.Bare, List.all_eq_true, Bool.and_eq_true, decide_eq_true_eq, and_assoc])

/-- Two such texts together. -/
theorem Text.Bare.append {s t : Text} (hs : s.Bare) (ht : t.Bare) : (s ++ t).Bare := by
  intro c hc
  rcases List.mem_append.1 hc with hc | hc
  · exact hs c hc
  · exact ht c hc

/-- All characters are of some kind, and those of delimiters are not. -/
theorem Text.bare_of_all {t : Text} {p : Char → Bool} (h : ∀ c ∈ t, p c = true)
    (hp : p '<' = false ∧ p '%' = false ∧ p '>' = false) : t.Bare := by
  intro c hc
  have hpc := h c hc
  refine ⟨?_, ?_, ?_⟩
  · rintro rfl
    rw [hp.1] at hpc
    cases hpc
  · rintro rfl
    rw [hp.2.1] at hpc
    cases hpc
  · rintro rfl
    rw [hp.2.2] at hpc
    cases hpc

/-- A text that holds no delimiter. -/
structure Text.Plain (t : Text) : Prop where
  opening : ¬ outerOpening <:+: t
  closing : ¬ outerClosing <:+: t

/-- The empty text has no delimiter. -/
theorem Text.plain_nil : Text.Plain [] :=
  ⟨by simp [outerOpening], by simp [outerClosing]⟩

/-- Without the characters there are no delimiters. -/
theorem Text.Bare.plain {t : Text} (h : t.Bare) : t.Plain where
  opening hpart := (h '<' (hpart.subset (List.mem_cons_self ..))).1 rfl
  closing hpart := (h '%' (hpart.subset (List.mem_cons_self ..))).2.1 rfl

/-- A part of a text without delimiters has none. -/
theorem Text.Plain.of_part {s t : Text} (ht : t.Plain) (h : s <:+: t) : s.Plain :=
  ⟨fun hs => ht.opening (hs.trans h), fun hs => ht.closing (hs.trans h)⟩

/-- What an opening begins with. -/
theorem Text.head?_of_opening_prefix {t : Text} (h : outerOpening <+: t) : t.head? = some '<' := by
  obtain ⟨rest, rfl⟩ := h
  rfl

/-! ## Seams

Whether a delimiter lies across a seam depends on the last character in front of it and on the first one
behind.  It is enough to know one of the two, if that one is not the right character for any delimiter. -/

/-- No delimiter lies across the seam of two texts. -/
structure Text.Seam (s t : Text) : Prop where
  opening : ¬ (s.getLast? = some '<' ∧ t.head? = some '%')
  closing : ¬ (s.getLast? = some '%' ∧ t.head? = some '>')

/-- The first character behind the seam is not the second one of a delimiter. -/
theorem Text.seam_of_head {s t : Text} (h : ∀ c, t.head? = some c → c ≠ '%' ∧ c ≠ '>') :
    Text.Seam s t :=
  ⟨fun ⟨_, hc⟩ => (h _ hc).1 rfl, fun ⟨_, hc⟩ => (h _ hc).2 rfl⟩

/-- The last character in front of the seam is not the first one of a delimiter. -/
theorem Text.seam_of_getLast {s t : Text} (h : ∀ c, s.getLast? = some c → c ≠ '<' ∧ c ≠ '%') :
    Text.Seam s t :=
  ⟨fun ⟨hc, _⟩ => (h _ hc).1 rfl, fun ⟨hc, _⟩ => (h _ hc).2 rfl⟩

/-- The first character is known. -/
theorem Text.seam_of_head_eq {s t : Text} {c : Char} (h : t.head? = some c)
    (hc : c ≠ '%' ∧ c ≠ '>') : Text.Seam s t := by
  refine seam_of_head fun d hd => ?_
  rw [h, Option.some_inj] at hd
  rwa [← hd]

/-- The last character is known. -/
theorem Text.seam_of_getLast_eq {s t : Text} {c : Char} (h : s.getLast? = some c)
    (hc : c ≠ '<' ∧ c ≠ '%') : Text.Seam s t := by
  refine seam_of_getLast fun d hd => ?_
  rw [h, Option.some_inj] at hd
  rwa [← hd]

/-- What comes later does not matter. -/
theorem Text.Seam.of_append_right {s t u : Text} (h : Text.Seam s (t ++ u)) : Text.Seam s t := by
  cases t with
  | nil => exact Text.seam_of_head nofun
  | cons c t => exact ⟨h.opening, h.closing⟩

/-- What comes earlier does not matter. -/
theorem Text.Seam.of_append_left {s t u : Text} (h : Text.Seam (s ++ t) u) : Text.Seam t u := by
  cases t with
  | nil => exact Text.seam_of_getLast nofun
  | cons c t =>
    have hlast : (s ++ c :: t).getLast? = (c :: t).getLast? := by
      rw [List.getLast?_append, List.getLast?_cons]
      rfl
    exact ⟨by rw [← hlast]; exact h.opening, by rw [← hlast]; exact h.closing⟩

/-- Texts without delimiters can be put together where none lies across the seam. -/
theorem Text.Plain.append {s t : Text} (hs : s.Plain) (ht : t.Plain) (hseam : Text.Seam s t) :
    Text.Plain (s ++ t) where
  opening h := by
    rcases Text.infix_pair_append.1 h with h | h | h
    · exact hs.opening h
    · exact ht.opening h
    · exact hseam.opening h
  closing h := by
    rcases Text.infix_pair_append.1 h with h | h | h
    · exact hs.closing h
    · exact ht.closing h
    · exact hseam.closing h

end Templating
