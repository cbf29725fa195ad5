import Templating.Text.Basic

/-!
# Where a mark occurs

`Text.cut?` goes through a text character by character.  Here it is said what it finds: nothing
exactly if the mark does not occur, and otherwise the first occurrence.

## What is here

* `Text.cut?_eq_none_iff` and `Text.cut?_first` say what `Text.cut?` finds, `Text.has_iff` when it finds
  something.
* `Text.cut?_of_append` forgets a part in front of the first occurrence.
* `Text.cut?_append` puts a text behind the one that is searched, `Text.cut?_behind` one in front of it.
* `Text.cut?_singleton` finds a mark of one character behind a text that lacks it.
* `Text.cut?_pair` finds a mark of two different characters behind a text that lacks it; no such mark
  can begin in the text and end in the mark.
* `Text.infix_pair_append` says when a mark of two characters lies across a seam.
* `Text.occurrence_beside` and `Text.infix_append_cons_iff`: no mark lies across a character that it
  does not have.
-/

set_option autoImplicit false

namespace Templating
namespace Text

/-! ## The first occurrence

All of this is by induction on the text.  At each character either the mark is there, and the search
ends, or it is not, and it can only occur in what is left. -/

/-- Nothing is taken off a text that does not start with the mark. -/
theorem after?_eq_none_iff {mark t : Text} : after? mark t = none ↔ ¬ mark <+: t := by
  cases h : after? mark t with
  | none =>
    refine ⟨fun _ ⟨rest, hrest⟩ => ?_, fun _ => rfl⟩
    rw [after?_eq_some_iff.2 hrest.symm] at h
    cases h
  | some rest => exact ⟨nofun, fun hno => absurd ⟨rest, (after?_eq_some_iff.1 h).symm⟩ hno⟩

/-- Nothing is found if the mark does not occur. -/
theorem cut?_eq_none_iff {mark t : Text} : cut? mark t = none ↔ ¬ mark <:+: t := by
  induction t with
  | nil =>
    rw [cut?]
    by_cases h : mark = []
    · simp [h]
    · simp [h]
  | cons c t ih =>
    rw [cut?, List.infix_cons_iff, not_or, ← ih]
    cases hafter : after? mark (c :: t) with
    | none => simp [after?_eq_none_iff.1 hafter]
    | some rest => simp [after?_eq_some_iff.1 hafter]

/-- Whether the mark occurs. -/
theorem has_iff {t mark : Text} : has t mark = true ↔ mark <:+: t := by
  have hnone : cut? mark t = none ↔ ¬ mark <:+: t := cut?_eq_none_iff
  rw [has]
  cases hcut : cut? mark t with
  | none => simpa using hnone.1 hcut
  | some parts => simpa [hcut] using hnone

/-- What stands before the first occurrence is not longer than what stands before another one. -/
theorem cut?_first {mark t a b x y : Text} (h : cut? mark t = some (a, b))
    (hxy : t = x ++ mark ++ y) : a.length ≤ x.length := by
  induction t generalizing a x with
  | nil =>
    have ha := cut?_eq_some h
    rw [List.append_assoc] at ha
    rw [(List.append_eq_nil_iff.1 ha.symm).1]
    exact Nat.zero_le _
  | cons c t ih =>
    rw [cut?] at h
    cases hafter : after? mark (c :: t) with
    | some rest =>
      rw [hafter] at h
      cases h
      exact Nat.zero_le _
    | none =>
      rw [hafter] at h
      obtain ⟨⟨a', b'⟩, h', heq⟩ := Option.map_eq_some_iff.1 h
      cases heq
      cases x with
      | nil => exact absurd ⟨y, hxy.symm⟩ (after?_eq_none_iff.1 hafter)
      | cons d x =>
        rw [List.cons_append, List.cons_append, List.cons.injEq] at hxy
        exact Nat.succ_le_succ (ih h' hxy.2)

/-- The mark does not occur in what stands before its first occurrence. -/
theorem not_infix_of_cut? {mark t a b : Text} (hmark : mark ≠ []) (h : cut? mark t = some (a, b)) :
    ¬ mark <:+: a := by
  rintro ⟨x, y, hxy⟩
  -- Another occurrence there would come before the first one.
  have hlen := cut?_first h (x := x) (y := y ++ mark ++ b) (by
    rw [cut?_eq_some h, ← hxy]
    simp)
  have hpos := List.length_pos_iff.2 hmark
  rw [← hxy, List.length_append, List.length_append] at hlen
  omega

/-- What stands behind an occurrence is shorter than the text, so a search can go on there. -/
theorem length_of_cut? {mark t a b : Text} (hmark : mark ≠ []) (h : cut? mark t = some (a, b)) :
    b.length < t.length := by
  have hlen := congrArg List.length (cut?_eq_some h)
  have hpos := List.length_pos_iff.2 hmark
  rw [List.length_append, List.length_append] at hlen
  omega

/-- A part in front of the first occurrence can be forgotten. -/
theorem cut?_of_append {mark x t a b : Text} (h : cut? mark (x ++ t) = some (x ++ a, b)) :
    cut? mark t = some (a, b) := by
  induction x with
  | nil => exact h
  | cons c x ih =>
    rw [List.cons_append, cut?] at h
    cases hafter : after? mark (c :: (x ++ t)) with
    | some rest => rw [hafter] at h; simp at h
    | none =>
      rw [hafter] at h
      obtain ⟨⟨a', b'⟩, h', heq⟩ := Option.map_eq_some_iff.1 h
      simp only [List.cons_append, Prod.mk.injEq, List.cons.injEq, true_and] at heq
      rw [heq.1, heq.2] at h'
      exact ih h'

/-- A mark at the front is found there. -/
theorem cut?_here {mark : Text} (hmark : mark ≠ []) (t : Text) :
    cut? mark (mark ++ t) = some ([], t) := by
  obtain ⟨c, mark, rfl⟩ := List.exists_cons_of_ne_nil hmark
  have hafter : after? (c :: mark) (c :: (mark ++ t)) = some t := by
    rw [after?_eq_some_iff, List.cons_append]
  rw [List.cons_append, cut?, hafter]

/-- More text behind it does not change what is found, only what is left. -/
theorem cut?_append {mark t a b : Text} (u : Text) (h : cut? mark t = some (a, b)) :
    cut? mark (t ++ u) = some (a, b ++ u) := by
  induction t generalizing a with
  | nil =>
    rw [cut?] at h
    split at h
    · next hmark =>
      cases h
      subst hmark
      cases u with
      | nil => rfl
      | cons c u => rfl
    · cases h
  | cons c t ih =>
    rw [cut?] at h
    rw [List.cons_append, cut?]
    cases hafter : after? mark (c :: t) with
    | some rest =>
      rw [hafter] at h
      cases h
      have hafter' : after? mark (c :: (t ++ u)) = some (b ++ u) := by
        rw [after?_eq_some_iff, ← List.cons_append, after?_eq_some_iff.1 hafter, List.append_assoc]
      rw [hafter']
    | none =>
      rw [hafter] at h
      obtain ⟨⟨a', b'⟩, h', heq⟩ := Option.map_eq_some_iff.1 h
      cases heq
      have hafter' : after? mark (c :: (t ++ u)) = none := by
        rw [after?_eq_none_iff]
        intro hfront
        -- The mark comes in `t`, so it is not too long to stand in front of `c :: t`.
        have hlen := congrArg List.length (cut?_eq_some h')
        rw [List.length_append, List.length_append] at hlen
        exact after?_eq_none_iff.1 hafter
          (List.prefix_of_prefix_length_le hfront (List.prefix_append (c :: t) u) (by simp; omega))
      rw [hafter', ih h']
      rfl

/-! ## Marks whose first character does not come again

In front of a text a part can be put in which the mark does not occur, and still the mark could begin in
that part and end in the text.  It cannot if the text starts with the first character of the mark and
the mark has that character only once. -/

/-- What is found in a text is found behind such a part as well. -/
theorem cut?_behind {c : Char} {mark lead t : Text} (hc : c ∉ mark) (ht : t.head? = some c)
    (h : ¬ c :: mark <:+: lead) :
    cut? (c :: mark) (lead ++ t) = (cut? (c :: mark) t).map (Prod.map (lead ++ ·) id) := by
  induction lead with
  | nil =>
    have hid : Prod.map (([] : Text) ++ ·) (id : Text → Text) = id := rfl
    rw [hid, Option.map_id]
    rfl
  | cons a lead ih =>
    rw [List.infix_cons_iff, not_or] at h
    have hafter : after? (c :: mark) (a :: (lead ++ t)) = none := by
      rw [after?_eq_none_iff]
      rintro ⟨rest, hrest⟩
      obtain ⟨rfl, hsame⟩ := List.cons.inj (hrest : c :: (mark ++ rest) = a :: (lead ++ t))
      rcases List.append_eq_append_iff.1 hsame with ⟨more, hlead, -⟩ | ⟨more, hmark, hmore⟩
      · exact h.1 ⟨more, congrArg (c :: ·) hlead.symm⟩
      · cases more with
        | nil => exact h.1 ⟨[], by simp [hmark]⟩
        | cons d more =>
          rw [hmore] at ht
          cases ht
          exact hc (by simp [hmark])
    rw [List.cons_append, cut?, hafter, ih h.2]
    dsimp only
    rw [Option.map_map]
    rfl

/-- A mark of one character occurs where the character does. -/
theorem infix_singleton_iff {c : Char} {t : Text} : [c] <:+: t ↔ c ∈ t := by
  constructor
  · exact fun h => h.subset (List.mem_singleton_self c)
  · intro h
    obtain ⟨front, back, rfl⟩ := List.append_of_mem h
    exact ⟨front, back, by simp⟩

/-- One character is found behind a text that does not have it. -/
theorem cut?_singleton {c : Char} {lead rest : Text} (h : c ∉ lead) :
    cut? [c] (lead ++ c :: rest) = some (lead, rest) := by
  have hhere : cut? [c] (c :: rest) = some ([], rest) := cut?_here (List.cons_ne_nil _ _) rest
  rw [cut?_behind List.not_mem_nil rfl (mt infix_singleton_iff.1 h), hhere]
  simp

/-! ## Marks of two characters

All delimiters are of this kind.  They can lie across the seam of two texts in one way only, with a
character on either side. -/

/-- A mark of two characters in two texts lies in one of them or across the seam. -/
theorem infix_pair_append {c d : Char} {s t : Text} :
    [c, d] <:+: s ++ t ↔
      [c, d] <:+: s ∨ [c, d] <:+: t ∨ (s.getLast? = some c ∧ t.head? = some d) := by
  induction s with
  | nil => simp
  | cons a s ih =>
    rw [List.cons_append, List.infix_cons_iff, List.infix_cons_iff, ih]
    cases s with
    | nil =>
      have hcross : [c, d] <+: a :: t ↔ [a].getLast? = some c ∧ t.head? = some d := by
        cases t with
        | nil => simp
        | cons b t => simp only [List.cons_prefix_cons, List.nil_prefix]; simp [eq_comm]
      rw [List.nil_append, hcross]
      have hno : ¬ [c, d] <+: [a] := by simp
      have hno' : ¬ [c, d] <:+: [] := by simp
      grind
    | cons b s =>
      rw [List.getLast?_cons_cons]
      simp only [List.cons_append, List.cons_prefix_cons, List.nil_prefix, or_assoc]

/-- Two different characters are found behind a text in which they do not follow each other. -/
theorem cut?_pair {c d : Char} {lead rest : Text} (hcd : c ≠ d) (h : ¬ [c, d] <:+: lead) :
    cut? [c, d] (lead ++ [c, d] ++ rest) = some (lead, rest) := by
  have hhere : cut? [c, d] ([c, d] ++ rest) = some ([], rest) := cut?_here (List.cons_ne_nil _ _) rest
  rw [List.append_assoc, cut?_behind (by simpa using hcd) rfl h, hhere]
  simp

/-- A text up to the first mark and a text behind it are known from the whole. -/
theorem append_pair_inj {c d : Char} {a b x y : Text} (hcd : c ≠ d) (ha : ¬ [c, d] <:+: a)
    (hb : ¬ [c, d] <:+: b) (h : a ++ [c, d] ++ x = b ++ [c, d] ++ y) : a = b ∧ x = y := by
  have hcut : cut? [c, d] (a ++ [c, d] ++ x) = some (a, x) := cut?_pair hcd ha
  rw [h, cut?_pair hcd hb] at hcut
  cases hcut
  exact ⟨rfl, rfl⟩

/-! ## Marks without a character

A character that is not in the mark separates what is in front of it from what is behind: the
occurrences are those in the one and those in the other. -/

/-- An occurrence of a mark ends before a character that the mark does not have, or begins behind it. -/
theorem occurrence_beside {mark front back s t : Text} {c : Char} (hc : c ∉ mark)
    (h : front ++ mark ++ back = s ++ c :: t) :
    (∃ more, s = front ++ mark ++ more ∧ back = more ++ c :: t) ∨
      ∃ more, front = s ++ c :: more ∧ t = more ++ mark ++ back := by
  rcases List.append_eq_append_iff.1 h with ⟨more, hs, hback⟩ | ⟨tail, hfront, ht⟩
  · exact .inl ⟨more, hs, hback⟩
  · cases tail with
    | nil => exact .inl ⟨[], by simpa using hfront.symm, by simpa using ht.symm⟩
    | cons d tail =>
      obtain ⟨rfl, rfl⟩ := List.cons.inj ht
      rcases List.append_eq_append_iff.1 hfront with ⟨part, -, hmark⟩ | ⟨more, hmore, hend⟩
      · exact (hc (by simp [hmark])).elim
      · cases more with
        | nil =>
          rw [List.nil_append] at hend
          exact (hc (by simp [← hend])).elim
        | cons e more =>
          obtain ⟨rfl, rfl⟩ := List.cons.inj hend
          exact .inr ⟨more, hmore, rfl⟩

/-- No mark lies across a character that it does not have. -/
theorem infix_append_cons_iff {mark s t : Text} {c : Char} (hc : c ∉ mark) :
    mark <:+: s ++ c :: t ↔ mark <:+: s ∨ mark <:+: t := by
  constructor
  · rintro ⟨front, back, h⟩
    rcases occurrence_beside hc h with ⟨more, rfl, -⟩ | ⟨more, -, rfl⟩
    · exact .inl ⟨front, more, rfl⟩
    · exact .inr ⟨more, back, rfl⟩
  · rintro (h | h)
    · exact h.trans (List.prefix_append s (c :: t)).isInfix
    · exact h.trans ((List.suffix_cons c t).trans (List.suffix_append s (c :: t))).isInfix

/-- So if the second text starts with such a character. -/
theorem infix_append_iff_of_head {mark s t : Text} {c : Char} (h : t.head? = some c)
    (hc : c ∉ mark) : mark <:+: s ++ t ↔ mark <:+: s ∨ mark <:+: t := by
  obtain ⟨t, rfl⟩ := List.head?_eq_some_iff.1 h
  have ht : mark <:+: c :: t ↔ mark <:+: [] ∨ mark <:+: t := infix_append_cons_iff (s := []) hc
  rw [infix_append_cons_iff hc, ht]
  exact or_congr_right ⟨.inr, fun hmark => hmark.elim (fun h => h.trans List.nil_infix) id⟩

/-- And so if the first one ends in it. -/
theorem infix_append_iff_of_getLast {mark s t : Text} {c : Char} (h : s.getLast? = some c)
    (hc : c ∉ mark) : mark <:+: s ++ t ↔ mark <:+: s ∨ mark <:+: t := by
  obtain ⟨s, rfl⟩ := List.getLast?_eq_some_iff.1 h
  rw [List.append_assoc, List.singleton_append, infix_append_cons_iff hc, infix_append_cons_iff hc]
  exact or_congr_left ⟨.inl, fun hmark => hmark.elim id fun h => h.trans List.nil_infix⟩

end Text
end Templating
