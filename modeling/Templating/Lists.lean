/-!
# Lists that are searched and counted

What a filter and a stronger condition do to a search and to a count.  File systems and disks are kept
as lists of entries, and both are read with `find?`; that a build ends is told by a count.
-/

set_option autoImplicit false

namespace List

variable {α : Type} {p q : α → Bool}

/-- Filtering does not hide what satisfies a stronger condition. -/
theorem find?_filter_of_imp (l : List α) (h : ∀ a, q a = true → p a = true) :
    (l.filter p).find? q = l.find? q := by
  have hpq : (fun a => decide (p a = true ∧ q a = true)) = q := by
    funext a
    cases hq : q a
    · simp
    · simp [h a hq]
  rw [find?_filter, hpq]

/-- A stronger condition that one element fails counts fewer elements. -/
theorem countP_lt_countP {l : List α} {a : α} (h : ∀ b ∈ l, p b = true → q b = true) (ha : a ∈ l)
    (hp : p a = false) (hq : q a = true) : l.countP p < l.countP q := by
  obtain ⟨s, t, rfl⟩ := append_of_mem ha
  have hs : s.countP p ≤ s.countP q :=
    countP_mono_left fun b hb => h b (mem_append_left _ hb)
  have ht : t.countP p ≤ t.countP q :=
    countP_mono_left fun b hb => h b (mem_append_right _ (mem_cons_of_mem _ hb))
  simp only [countP_append, countP_cons, hp, hq]
  simp
  omega

end List
