import Mathlib.Data.List.TakeWhile
import Templating.Version.Parser
import Templating.Proofs.Except

/-!
# The characters of a version

A text that is read as a version consists of letters, digits, dots, hyphens and plus signs only.  In
particular it holds none of the characters that the delimiters of tags are made of.

## What is here

* `Version.isVersionChar` are these characters, `Version.Taken` says that only such characters were
  read off the front of a text, and there is one lemma for each reader.
* `Version.isVersionChar_of_parseTools` is the conclusion.
-/

set_option autoImplicit false

namespace Templating
namespace Version

/-! ## What is read off the front

The reader of versions has a function for each part of one, and each takes something off the front of
the text.  What is shown of every one of them is that it takes nothing but characters of versions, so it
holds of all that they take together. -/

/-- Whether a character can occur in a version. -/
def isVersionChar (c : Char) : Bool := isIdentifierChar c || c = '.' || c = '+'

/-- Between a text and its rest only characters of versions were read. -/
def Taken (t rest : Text) : Prop := ∃ front, t = front ++ rest ∧ ∀ c ∈ front, isVersionChar c = true

/-- Nothing was read. -/
theorem Taken.refl (t : Text) : Taken t t := ⟨[], rfl, by simp⟩

/-- One thing was read after another. -/
theorem Taken.trans {t u v : Text} (h : Taken t u) (h' : Taken u v) : Taken t v := by
  obtain ⟨front, rfl, hfront⟩ := h
  obtain ⟨next, rfl, hnext⟩ := h'
  refine ⟨front ++ next, (List.append_assoc ..).symm, fun c hc => ?_⟩
  rcases List.mem_append.1 hc with hc | hc
  · exact hfront c hc
  · exact hnext c hc

/-- One character was read. -/
theorem taken_cons {c : Char} (hc : isVersionChar c = true) (t : Text) : Taken (c :: t) t :=
  ⟨[c], rfl, by simpa using hc⟩

/-- Characters of one kind were read. -/
theorem taken_dropWhile {p : Char → Bool} (hp : ∀ c, p c = true → isVersionChar c = true)
    (t : Text) : Taken t (t.dropWhile p) := by
  refine ⟨t.takeWhile p, List.takeWhile_append_dropWhile.symm, fun c hc => hp c ?_⟩
  exact List.mem_takeWhile_imp hc

/-- Letters, digits and hyphens can occur in a version. -/
theorem isVersionChar_of_isIdentifierChar (c : Char) (h : isIdentifierChar c = true) :
    isVersionChar c = true := by
  simp [isVersionChar, h]

/-- And so digits. -/
theorem isVersionChar_of_isDigit (c : Char) (h : c.isDigit = true) : isVersionChar c = true := by
  simp [isVersionChar, isIdentifierChar, Char.isAlphanum, h]

/-! ## The readers

There is one lemma for each of them, in the order in which they are built on each other. -/

/-- A number is digits. -/
theorem number_taken {part : Part} {t rest : Text} {n : Nat} (h : number part t = .ok (n, rest)) :
    Taken t rest := by
  rw [number] at h
  split at h
  · simp at h
  · simp at h
  · simp at h
  · split at h
    · cases h
      exact taken_dropWhile isVersionChar_of_isDigit t
    · simp at h

/-- A dot is a dot. -/
theorem dot_taken {part : Part} {t rest : Text} (h : dot part t = .ok rest) : Taken t rest := by
  rw [dot.eq_def] at h
  split at h
  · cases h
    exact taken_cons (by decide) rest
  · simp at h
  · simp at h

/-- Identifiers are words with dots in between. -/
theorem identifiers_taken {part : Part} {t rest : Text} {ids : List Text}
    (h : identifiers part t = .ok (ids, rest)) : Taken t rest := by
  have htake : Taken t (t.dropWhile isIdentifierChar) :=
    taken_dropWhile isVersionChar_of_isIdentifierChar t
  fun_induction identifiers part t generalizing ids rest with
  | case1 => simp at h
  | case2 => simp at h
  | case3 t identifier hne hzero after hdrop more rest' hmore =>
    rename_i ih
    cases h
    rw [hdrop] at htake
    exact (htake.trans (taken_cons (by decide) after)).trans
      (ih hmore (taken_dropWhile isVersionChar_of_isIdentifierChar after))
  | case4 => simp at h
  | case5 =>
    cases h
    exact htake

/-- They may come behind a mark, or be left out with it. -/
theorem marked_taken {mark : Char} {part : Part} {t rest : Text} {ids : List Text}
    (hmark : isVersionChar mark = true) (h : marked mark part t = .ok (ids, rest)) :
    Taken t rest := by
  rw [marked.eq_def] at h
  split at h
  · cases h
    exact Taken.refl []
  · split at h
    · next hc => exact (taken_cons (hc ▸ hmark) _).trans (identifiers_taken h)
    · cases h
      exact Taken.refl _

/-! ## Whole versions

Nothing may be left of the text.  A version of tools may lack its minor and patch numbers; then zeros are
put in before it is read.  The characters of the text itself are all there as well. -/

/-- A version is read to the end. -/
theorem taken_of_parse {t : Text} {v : Version} (h : parse t = .ok v) : Taken t [] := by
  rw [parse] at h
  split at h
  · cases h
  obtain ⟨⟨major, t1⟩, hmajor, h⟩ := bind_eq_ok.1 h
  obtain ⟨t2, hdot, h⟩ := bind_eq_ok.1 h
  obtain ⟨⟨minor, t3⟩, hminor, h⟩ := bind_eq_ok.1 h
  obtain ⟨t4, hdot', h⟩ := bind_eq_ok.1 h
  obtain ⟨⟨patch, t5⟩, hpatch, h⟩ := bind_eq_ok.1 h
  obtain ⟨⟨pre, t6⟩, hpre, h⟩ := bind_eq_ok.1 h
  obtain ⟨⟨build, t7⟩, hbuild, h⟩ := bind_eq_ok.1 h
  have hrest : t7 = [] := by
    cases t7 with
    | nil => rfl
    | cons c t7 => cases h
  subst hrest
  have hnumbers := (((number_taken hmajor).trans (dot_taken hdot)).trans
    (number_taken hminor)).trans ((dot_taken hdot').trans (number_taken hpatch))
  exact (hnumbers.trans (marked_taken (by decide) hpre)).trans (marked_taken (by decide) hbuild)

/-- A text that is read as a version has no other characters. -/
theorem isVersionChar_of_parseTools {t : Text} {v : Version} (h : parseTools t = .ok v) {c : Char}
    (hc : c ∈ t) : isVersionChar c = true := by
  obtain ⟨front, heq, hfront⟩ := taken_of_parse h
  refine hfront c ?_
  rw [List.append_nil] at heq
  rw [← heq]
  have hcore : core t <+: t := List.takeWhile_prefix _
  rw [← List.take_append_drop (core t).length t, ← List.prefix_iff_eq_take.1 hcore] at hc
  rcases List.mem_append.1 hc with hc | hc
  · exact List.mem_append_left _ (List.mem_append_left _ hc)
  · exact List.mem_append_right _ hc

end Version
end Templating
