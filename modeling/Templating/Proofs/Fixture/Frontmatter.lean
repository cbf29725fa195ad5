import Templating.Fixture.Basic
import Templating.Proofs.Text.Lines
import Templating.Proofs.Text.Marks

/-!
# Taking fixtures apart

A fixture is put together from settings and a template, with a delimiter on a line of its own in front of
the settings and another one behind them.  Reading a fixture takes it apart at the same places, whatever
the template is, since the settings have no delimiter at the start of a line.

## What is here

* `Frontmatter.opened` and `Frontmatter.assembled` put fixtures together; `Frontmatter.Undelimited` is the
  condition on settings.
* `Frontmatter.split?_assembled` takes them apart again.
* `Fixture.parse_assembled` is the main result, with the texts that are no fixtures.
-/

set_option autoImplicit false

namespace Templating

/-- A line break, with or without a carriage return. -/
def Text.IsBreak (eol : Text) : Prop := eol = ['\n'] ∨ eol = ['\r', '\n']

/-- A line break at the front is dropped, of either kind. -/
theorem Text.IsBreak.dropBreak_append {eol : Text} (h : eol.IsBreak) (t : Text) :
    dropBreak (eol ++ t) = t := by
  rcases h with rfl | rfl
  · rfl
  · rfl

namespace Frontmatter

/-! ## Putting fixtures together

The settings come in between two delimiters, with a line break before each and behind each.  They must
not have a line that starts with a delimiter, as the fixture would be taken apart there. -/

/-- No line starts with a delimiter. -/
def Undelimited (t : Text) : Prop := ∀ line ∈ t.lines, ¬ delimiter <+: line

instance (t : Text) : Decidable (Undelimited t) :=
  inferInstanceAs (Decidable (∀ line ∈ t.lines, ¬ delimiter <+: line))

/-- The opening delimiter on its line, with some byte-order marks in front of it and a text behind it. -/
def opened (marks : Nat) (eol t : Text) : Text :=
  List.replicate marks '\uFEFF' ++ (delimiter ++ eol ++ t)

/-- A fixture with some settings and a template. -/
def assembled (marks : Nat) (eol settings body : Text) : Text :=
  opened marks eol (settings ++ eol ++ (delimiter ++ eol ++ body))

variable {marks : Nat} {eol settings body t : Text}

/-- A delimiter at the start of a line is at the front of the text or behind a line break. -/
theorem undelimited_iff : Undelimited t ↔ ¬ delimiter <+: t ∧ ¬ '\n' :: delimiter <:+: t := by
  have hmark : '\n' ∉ delimiter := by decide
  have hlines := Text.exists_line_iff (t := t) hmark
  rw [← not_or, ← hlines]
  simp [Undelimited]

/-- A carriage return at the end starts no line. -/
theorem Undelimited.concat_return (h : Undelimited t) : Undelimited (t ++ ['\r']) := by
  rw [undelimited_iff] at h ⊢
  refine ⟨fun hfront => ?_, fun hinfix => ?_⟩
  · rcases List.prefix_concat_iff.1 hfront with heq | hfront
    · have hmem : '\r' ∈ delimiter := by rw [heq]; simp
      exact absurd hmem (by decide)
    · exact h.1 hfront
  · rcases (Text.infix_append_cons_iff (by decide)).1 hinfix with hinfix | hnil
    · exact h.2 hinfix
    · exact absurd (List.infix_nil.1 hnil) (by decide)

/-! ## Taking them apart

What is looked for is a line break with a delimiter behind it.  If lines end in carriage returns, there
is one in front of that line break.  It stands at the end of the settings then, and is dropped. -/

/-- All byte-order marks at the front are dropped. -/
theorem dropByteOrderMarks_replicate (h : t.head? ≠ some '\uFEFF') :
    dropByteOrderMarks (List.replicate marks '\uFEFF' ++ t) = t := by
  rw [dropByteOrderMarks, List.dropWhile_append_of_pos (by simp +contextual)]
  cases t with
  | nil => rfl
  | cons c t => exact List.dropWhile_cons_of_neg (by simpa using h)

/-- Behind them is the delimiter. -/
theorem after?_opened :
    Text.after? delimiter (dropByteOrderMarks (opened marks eol t)) = some (eol ++ t) := by
  rw [opened, dropByteOrderMarks_replicate (by simp [delimiter]), Text.after?_eq_some_iff,
    List.append_assoc]

/-- It is enough to know where the settings end. -/
theorem split?_of_close? {rest : Text} (heol : eol.IsBreak) (h : close? t = some (settings, rest)) :
    split? (opened marks eol t) = .ok (dropReturns settings, rest.dropBreak) := by
  rw [split?, after?_opened]
  dsimp only
  rw [heol.dropBreak_append, h]

/-- Settings end at the first delimiter behind a line break. -/
theorem close?_append (h : Undelimited t) (rest : Text) :
    close? (t ++ '\n' :: (delimiter ++ rest)) = some (t, rest) := by
  obtain ⟨hfront, hinfix⟩ := undelimited_iff.1 h
  have hafter : Text.after? delimiter (t ++ '\n' :: (delimiter ++ rest)) = none := by
    obtain ⟨line, lines, hlines⟩ := List.exists_cons_of_ne_nil (Text.lines_ne_nil t)
    have hmore := Text.lines_append_break t (delimiter ++ rest)
    rw [hlines, List.cons_append] at hmore
    rw [Text.after?_eq_none_iff, Text.prefix_iff_of_lines (by decide) hmore,
      ← Text.prefix_iff_of_lines (by decide) hlines]
    exact hfront
  have hhere : Text.cut? ('\n' :: delimiter) ('\n' :: (delimiter ++ rest)) = some ([], rest) :=
    Text.cut?_here (List.cons_ne_nil _ _) rest
  rw [close?, hafter]
  dsimp only
  rw [Text.cut?_behind (by decide) rfl hinfix, hhere]
  simp

/-- Carriage returns at the end are dropped, and nothing else. -/
theorem dropReturns_append (h : t.getLast? ≠ some '\r') (n : Nat) :
    dropReturns (t ++ List.replicate n '\r') = t := by
  rw [dropReturns, List.reverse_append, List.reverse_replicate,
    List.dropWhile_append_of_pos (by simp +contextual)]
  have hhead : t.reverse.head? ≠ some '\r' := by rwa [List.head?_reverse]
  rw [← List.reverse_inj, List.reverse_reverse]
  cases hreverse : t.reverse with
  | nil => rfl
  | cons c front =>
    rw [hreverse] at hhead
    exact List.dropWhile_cons_of_neg (by simpa using hhead)

/-- **What was put together is taken apart.** -/
theorem split?_assembled (heol : eol.IsBreak) (hlast : settings.getLast? ≠ some '\r')
    (h : Undelimited settings) :
    split? (assembled marks eol settings body) = .ok (settings, body) := by
  -- The carriage return of the line break is taken for the end of the settings, and dropped there.
  obtain ⟨n, hbreak, hfront⟩ : ∃ n, eol = List.replicate n '\r' ++ ['\n'] ∧
      Undelimited (settings ++ List.replicate n '\r') := by
    rcases heol with rfl | rfl
    · exact ⟨0, rfl, by simpa using h⟩
    · exact ⟨1, rfl, h.concat_return⟩
  have htext (rest : Text) :
      settings ++ eol ++ rest = settings ++ List.replicate n '\r' ++ '\n' :: rest := by
    rw [hbreak]
    simp
  rw [assembled, htext, List.append_assoc delimiter, split?_of_close? heol (close?_append hfront _),
    dropReturns_append hlast, heol.dropBreak_append]

/-- Without settings the delimiters follow each other. -/
theorem split?_compact (heol : eol.IsBreak) :
    split? (opened marks eol (delimiter ++ eol ++ body)) = .ok ([], body) := by
  have hclose : close? (delimiter ++ eol ++ body) = some ([], eol ++ body) := by
    have hafter : Text.after? delimiter (delimiter ++ eol ++ body) = some (eol ++ body) :=
      Text.after?_eq_some_iff.2 (List.append_assoc ..)
    rw [close?, hafter]
  rw [split?_of_close? heol hclose, heol.dropBreak_append]
  rfl

/-! ## What is no fixture

Without the first delimiter nothing else is looked at.  Without the second one there is no end to the
settings. -/

/-- A text that does not start with a delimiter. -/
theorem split?_of_unopened (hmarks : t.head? ≠ some '\uFEFF') (h : ¬ delimiter <+: t) :
    split? (List.replicate marks '\uFEFF' ++ t) = .error .missingOpening := by
  rw [split?, dropByteOrderMarks_replicate hmarks, Text.after?_eq_none_iff.2 h]

/-- A text in which no second delimiter starts a line. -/
theorem split?_of_unclosed (heol : eol.IsBreak) (h : Undelimited t) :
    split? (opened marks eol t) = .error .missingClosing := by
  obtain ⟨hfront, hinfix⟩ := undelimited_iff.1 h
  have hclose : close? t = none := by
    rw [close?, Text.after?_eq_none_iff.2 hfront]
    exact Text.cut?_eq_none_iff.2 hinfix
  rw [split?, after?_opened]
  dsimp only
  rw [heol.dropBreak_append, hclose]

end Frontmatter

/-! ## Fixtures

How the settings are read is not looked into here: whatever the reader says of them, it is asked about
exactly what was put in. -/

namespace Fixture

open Frontmatter

/-- A fixture that can be taken apart is one if its settings can be read. -/
theorem parse_of_split? {content settings body : Text} (h : split? content = .ok (settings, body)) :
    parse content =
      match Toml.ofText? settings >>= Settings.ofEntries? with
      | some s => .ok ⟨s, body⟩
      | none => .error .malformed := by
  rw [parse, h]
  rfl

/-- Any other is none. -/
theorem parse_of_split?_eq_error {content : Text} {e : Error} (h : split? content = .error e) :
    parse content = .error e := by
  rw [parse, h]
  rfl

/-- **A fixture is taken apart where it was put together.**  The settings are read as they are, the
template is returned as it is; a text without the one or the other delimiter is no fixture. -/
theorem parse_assembled :
    (∀ (marks : Nat) (eol settings body : Text), eol.IsBreak → settings.getLast? ≠ some '\r' →
      Undelimited settings →
      split? (assembled marks eol settings body) = .ok (settings, body) ∧
      (∀ s, Toml.ofText? settings >>= Settings.ofEntries? = some s →
        parse (assembled marks eol settings body) = .ok ⟨s, body⟩) ∧
      (Toml.ofText? settings >>= Settings.ofEntries? = none →
        parse (assembled marks eol settings body) = .error .malformed)) ∧
    (∀ (marks : Nat) (eol body : Text), eol.IsBreak →
      parse (opened marks eol (delimiter ++ eol ++ body)) = .ok ⟨{}, body⟩) ∧
    (∀ (marks : Nat) (t : Text), t.head? ≠ some '\uFEFF' → ¬ delimiter <+: t →
      parse (List.replicate marks '\uFEFF' ++ t) = .error .missingOpening) ∧
    ∀ (marks : Nat) (eol t : Text), eol.IsBreak → Undelimited t →
      parse (opened marks eol t) = .error .missingClosing := by
  refine ⟨fun marks eol settings body heol hlast h => ?_, fun marks eol body heol => ?_,
    fun marks t hmarks h => ?_, fun marks eol t heol h => ?_⟩
  · have hsplit : split? (assembled marks eol settings body) = .ok (settings, body) :=
      split?_assembled heol hlast h
    refine ⟨hsplit, fun s hs => ?_, fun hnone => ?_⟩
    · rw [parse_of_split? hsplit, hs]
    · rw [parse_of_split? hsplit, hnone]
  · have hnone : Toml.ofText? [] >>= Settings.ofEntries? = some {} := by decide +kernel
    rw [parse_of_split? (split?_compact heol), hnone]
  · exact parse_of_split?_eq_error (split?_of_unopened hmarks h)
  · exact parse_of_split?_eq_error (split?_of_unclosed heol h)

/-- Settings on two lines, and a template that begins with an empty line and a delimiter. -/
theorem parse_assembled_before_delimiter :
    let settings := "description = \"d\"\r\nexpect_line = 3".toList
    let body := "\r\n---\n<%= x %>\n".toList
    Undelimited settings ∧
      parse (assembled 2 ['\r', '\n'] settings body)
        = .ok ⟨{ description := some ['d'], line := some 3 }, body⟩ ∧
      parse (opened 0 ['\n'] settings) = .error .missingClosing ∧
      parse ("# ---\n".toList) = .error .missingOpening := by
  intro settings body
  have hsettings : Undelimited settings := by decide +kernel
  have hread : Toml.ofText? settings >>= Settings.ofEntries?
      = some { description := some ['d'], line := some 3 } := by decide +kernel
  obtain ⟨hassembled, -, hunopened, hunclosed⟩ := parse_assembled
  exact ⟨hsettings, (hassembled 2 _ settings body (.inr rfl) (by decide) hsettings).2.1 _ hread,
    hunclosed 0 _ settings (.inl rfl) hsettings, hunopened 0 _ (by decide) (by decide)⟩

end Fixture
end Templating
