import Templating.Directive
import Templating.Proofs.Text.Delimiters
import Templating.Proofs.Text.Offsets
import Templating.Proofs.Version.Characters

/-!
# The line that is left out

What expansion leaves out of a file is its version directive: a line at its very front.  That line
holds no character of a delimiter, so no tag begins, ends or passes through it.

## What is here

* `Directive.Begins` says which texts begin like a directive, and `Directive.value?_eq_none_iff` that
  those are the ones that are taken for one.
* `Directive.bare_of_value?` and `Directive.bare_line` go through the parts of the line, and
  `Directive.exists_line` puts them together.
* `Directive.bodyStart_eq` cuts a file after its directive.
-/

set_option autoImplicit false

namespace Templating

/-! ## Documents of one file

A document that is made of one file has the text and the path of that file. -/

theorem Document.text_ofSource (path : Path) (t : Text) : (Document.ofSource path t).text = t := by
  rw [Document.text, Document.ofSource, Piece.copied]
  dsimp only
  rw [Text.slice_full]
  split
  · next h => rw [h]; rfl
  · simp

@[simp] theorem Document.path_ofSource (path : Path) (t : Text) :
    (Document.ofSource path t).path = path := rfl

namespace Directive

/-! ## The parts of the line

The line has a marker, blanks, the name of the directive and a version.  Each of them is made of
characters that no delimiter has; of the version this is known because it can be read. -/

/-- What stands in front of the value of a directive: a comment marker, spaces or tabs, and its name. -/
def Lead (front : Text) : Prop :=
  ∃ marker blanks, (marker = ['/', '/'] ∨ marker = ['#']) ∧ (∀ c ∈ blanks, c = ' ' ∨ c = '\t') ∧
    front = marker ++ (blanks ++ keyword)

/-- Whether a text begins like a directive, whatever its value is. -/
def Begins (t : Text) : Prop := ∃ front, Lead front ∧ front <+: t

/-- A line may be marked as a comment in two ways. -/
theorem afterMarker?_eq_some_iff {t rest : Text} : afterMarker? t = some rest ↔
    ∃ marker, (marker = ['/', '/'] ∨ marker = ['#']) ∧ t = marker ++ rest := by
  rw [afterMarker?, Option.or_eq_some_iff]
  constructor
  · rintro (h | ⟨-, h⟩)
    · exact ⟨_, .inl rfl, Text.after?_eq_some_iff.1 h⟩
    · exact ⟨_, .inr rfl, Text.after?_eq_some_iff.1 h⟩
  · rintro ⟨_, rfl | rfl, rfl⟩
    · exact .inl (Text.after?_eq_some_iff.2 rfl)
    · exact .inr ⟨rfl, Text.after?_eq_some_iff.2 rfl⟩

/-- The value is what comes behind the lead. -/
theorem value?_eq_some_iff {t value : Text} :
    value? t = some value ↔ ∃ front, Lead front ∧ t = front ++ value := by
  rw [value?]
  constructor
  · intro h
    obtain ⟨rest, hafter, hkeyword⟩ := Option.bind_eq_some_iff.1 h
    obtain ⟨marker, hmarker, rfl⟩ := afterMarker?_eq_some_iff.1 hafter
    have hrest := Text.after?_eq_some_iff.1 hkeyword
    refine ⟨_, ⟨marker, rest.takeWhile fun c => c = ' ' || c = '\t', hmarker, ?_, rfl⟩, ?_⟩
    · intro c hc
      simpa using List.mem_takeWhile_imp (p := fun c => c = ' ' || c = '\t') hc
    · rw [List.append_assoc, List.append_assoc, ← hrest, List.takeWhile_append_dropWhile]
  · rintro ⟨_, ⟨marker, blanks, hmarker, hblanks, rfl⟩, rfl⟩
    have hname : (keyword ++ value).dropWhile (fun c => c = ' ' || c = '\t') = keyword ++ value :=
      rfl
    refine Option.bind_eq_some_iff.2 ⟨blanks ++ keyword ++ value, ?_, ?_⟩
    · exact afterMarker?_eq_some_iff.2 ⟨marker, hmarker, by rw [List.append_assoc]⟩
    · rw [List.append_assoc, List.dropWhile_append_of_pos (by simpa using hblanks), hname]
      exact Text.after?_eq_some_iff.2 rfl

/-- A text that does not begin like a directive is taken for none. -/
theorem value?_eq_none_iff {t : Text} : value? t = none ↔ ¬ Begins t := by
  rw [Option.eq_none_iff_forall_ne_some, Begins, not_exists]
  refine ⟨fun h front => ?_, fun h value hvalue => ?_⟩
  · rintro ⟨hlead, value, rfl⟩
    exact h value (value?_eq_some_iff.2 ⟨front, hlead, rfl⟩)
  · obtain ⟨front, hlead, rfl⟩ := value?_eq_some_iff.1 hvalue
    exact h front ⟨hlead, List.prefix_append _ _⟩

/-- The name of the directive has no character of a delimiter. -/
theorem bare_keyword : keyword.Bare := by
  refine Text.bare_of_all (p := fun c => c.isAlpha || c = '-' || c = ':') ?_ (by decide)
  exact List.all_eq_true.1 (by decide)

/-- Nor has anything in front of the value. -/
theorem Lead.bare {front : Text} (h : Lead front) : front.Bare := by
  obtain ⟨marker, blanks, hmarker, hblanks, rfl⟩ := h
  have hmarker : Text.Bare marker := by
    rcases hmarker with rfl | rfl
    · simp [Text.Bare]
    · simp [Text.Bare]
  have hblanks : blanks.Bare :=
    Text.bare_of_all (p := fun c => c = ' ' || c = '\t') (by simpa using hblanks) (by decide)
  exact hmarker.append (hblanks.append bare_keyword)

/-- The same, of a text with a value. -/
theorem bare_of_value? {t value : Text} (h : value? t = some value) :
    ∃ front, t = front ++ value ∧ front.Bare := by
  obtain ⟨front, hlead, htext⟩ := value?_eq_some_iff.1 h
  exact ⟨front, htext, hlead.bare⟩

/-- The rest of the line: blanks round a version. -/
theorem bare_line {line : Text} {v : Version} (h : Version.parseTools (Text.trim line) = .ok v) :
    line.Bare := by
  have hchar : ∀ c ∈ line, Text.isBlank c = true ∨ Version.isVersionChar c = true := by
    intro c hc
    rw [← List.takeWhile_append_dropWhile (p := Text.isBlank) (l := line)] at hc
    rcases List.mem_append.1 hc with hc | hc
    · exact Or.inl (List.mem_takeWhile_imp hc)
    · rw [← List.mem_reverse,
        ← List.takeWhile_append_dropWhile (p := Text.isBlank) (l := (line.dropWhile _).reverse)] at hc
      rcases List.mem_append.1 hc with hc | hc
      · exact Or.inl (List.mem_takeWhile_imp hc)
      · refine Or.inr (Version.isVersionChar_of_parseTools h ?_)
        rw [Text.trim, Text.trimEnd, Text.trimStart, List.mem_reverse]
        exact hc
  refine Text.bare_of_all (p := fun c => Text.isBlank c || Version.isVersionChar c) ?_ (by decide)
  intro c hc
  rw [Bool.or_eq_true]
  exact hchar c hc

/-- A text is its first line, and a line break before what follows, if anything does. -/
theorem firstLine_cases (t : Text) :
    t = t.takeWhile (· ≠ '\n') ∨ ∃ rest, t = t.takeWhile (· ≠ '\n') ++ '\n' :: rest := by
  induction t with
  | nil => exact Or.inl rfl
  | cons c t ih =>
    by_cases hc : c = '\n'
    · exact Or.inr ⟨t, by simp [hc]⟩
    · rw [List.takeWhile_cons_of_pos (by simpa using hc)]
      rcases ih with ih | ⟨rest, ih⟩
      · exact Or.inl (congrArg _ ih)
      · exact Or.inr ⟨rest, congrArg _ ih⟩

/-- The lead is on one line. -/
theorem Lead.break_not_mem {front : Text} (h : Lead front) : '\n' ∉ front := by
  obtain ⟨marker, blanks, hmarker, hblanks, rfl⟩ := h
  have hmarker : '\n' ∉ marker := by
    rcases hmarker with rfl | rfl
    · decide
    · decide
  have hblanks : '\n' ∉ blanks := fun h => absurd (hblanks _ h) (by decide)
  have hkeyword : '\n' ∉ keyword := by decide
  rw [List.mem_append, List.mem_append]
  exact not_or.2 ⟨hmarker, not_or.2 ⟨hblanks, hkeyword⟩⟩

/-- And the rest of that line has no line break. -/
theorem break_not_mem_takeWhile (t : Text) : '\n' ∉ t.takeWhile (· ≠ '\n') :=
  fun h => absurd (List.mem_takeWhile_imp h) (by decide)

/-! ## Where the body begins

The body begins behind the line break.  At the end of a file there may be none, so the offset is cut at
the size of the text. -/

/-- The line of a directive with its line break, if it has one. -/
theorem exists_line {text front value : Text} {version : Version} (hlead : Lead front)
    (htext : text = front ++ value)
    (hversion : Version.parseTools (Text.trim (value.takeWhile (· ≠ '\n'))) = .ok version) :
    ∃ line rest, text = line ++ rest ∧ line.Bare ∧
      min (front.size + Text.size (value.takeWhile (· ≠ '\n')) + 1) text.size = Text.size line ∧
      ((rest = [] ∧ '\n' ∉ line) ∨ ∃ start, line = start ++ ['\n'] ∧ '\n' ∉ start) := by
  have hbare := hlead.bare.append (bare_line hversion)
  have hbreak : '\n' ∉ front ++ value.takeWhile (· ≠ '\n') := by
    rw [List.mem_append]
    exact not_or.2 ⟨hlead.break_not_mem, break_not_mem_takeWhile value⟩
  rw [← Text.size_append]
  rcases firstLine_cases value with hvalue | ⟨rest, hvalue⟩
  · rw [hvalue] at htext
    refine ⟨text, [], (List.append_nil text).symm, htext ▸ hbare, ?_, .inl ⟨rfl, htext ▸ hbreak⟩⟩
    rw [htext]
    exact Nat.min_eq_right (Nat.le_succ _)
  · generalize value.takeWhile (· ≠ '\n') = line at hbare hbreak hvalue ⊢
    subst hvalue
    have htext : text = front ++ line ++ ['\n'] ++ rest := by simp [htext]
    have hsize : Text.size (front ++ line ++ ['\n']) = Text.size (front ++ line) + 1 := by
      rw [Text.size_append]
      rfl
    refine ⟨_, rest, htext, hbare.append (by simp [Text.Bare]), ?_, .inr ⟨_, rfl, hbreak⟩⟩
    rw [htext, Text.size_append _ rest, hsize, Nat.min_eq_left (Nat.le_add_right _ _)]

/-- **A file is its directive line and its body,** and the line holds nothing of a delimiter. -/
theorem bodyStart_eq {d : Document} {directive : Option Directive}
    (h : find? d = .ok directive) :
    ∃ line body, d.text = line ++ body ∧ line.Bare ∧ bodyStart directive = Text.size line := by
  rw [find?] at h
  split at h
  · cases h
    exact ⟨[], d.text, rfl, by simp [Text.Bare], rfl⟩
  · next value hvalue =>
    obtain ⟨front, hlead, htext⟩ := value?_eq_some_iff.1 hvalue
    have hsize : d.size - Text.size value = Text.size front := by
      rw [Document.size, htext, Text.size_append, Nat.add_sub_cancel_right]
    dsimp only at h
    rw [hsize] at h
    split at h
    · next version hversion =>
      cases h
      obtain ⟨line, rest, htext, hbare, hline, -⟩ := exists_line hlead htext hversion
      exact ⟨line, rest, htext, hbare, hline⟩
    · simp at h

end Directive
end Templating
