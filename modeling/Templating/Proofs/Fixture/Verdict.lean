import Templating.Fixture.Outcome
import Templating.Proofs.Text.Marks

/-!
# What a passing fixture shows

A fixture passes if nothing that is looked at differs from what its settings say.  Which settings are
looked at depends on whether it is to fail: then the error and its line are, and otherwise the text and
the source of the program.  So settings of both kinds in one fixture are not all looked at.

## What is here

* `Settings.Fulfilled` is all that the settings of a fixture say of its build, and `Settings.Checked` as
  much of it as is looked at; `Settings.mismatch?_eq_none_iff` is about the latter.
* `Settings.OneSided` are the settings of which nothing is overlooked.
* `Fixture.passed_iff_checked` is the conclusion.
-/

set_option autoImplicit false

namespace Templating

/-! ## Settings

What settings say and what is looked at are put down as two separate predicates, each complete in
itself.  The first has a clause for every setting.  The second follows the way a build is compared: by
whether an error is expected.  Where they differ is what `OneSided` rules out. -/

namespace Settings

variable {s : Settings} {build : Except BuildError Program} {e : BuildError} {p : Program}

/-- A build is as the settings say, each of them. -/
structure Fulfilled (s : Settings) (build : Except BuildError Program) : Prop where
  error : ∀ expected, s.error = some expected → ∃ e, build = .error e ∧ expected <:+: e.describe.toList
  line : ∀ n, s.line = some n →
    ∃ e l, build = .error e ∧ e.rootCause.location? = some l ∧ l.line = n
  text : ∀ t, s.text = some t → ∃ p, build = .ok p ∧ p.staticText = t
  contains : ∀ t ∈ s.contains, ∃ p, build = .ok p ∧ t <:+: p.source

/-- A build is as those settings say that are looked at. -/
inductive Checked (s : Settings) : Except BuildError Program → Prop
  | failed {expected : Text} {e : BuildError} (herror : s.error = some expected)
      (hmessage : expected <:+: e.describe.toList)
      (hline : ∀ n, s.line = some n → ∃ l, e.rootCause.location? = some l ∧ l.line = n) :
      Checked s (.error e)
  | built {p : Program} (herror : s.error = none) (htext : ∀ t, s.text = some t → p.staticText = t)
      (hcontains : ∀ t ∈ s.contains, t <:+: p.source) : Checked s (.ok p)

/-- The settings are about an error or about a program. -/
structure OneSided (s : Settings) : Prop where
  line : s.error = none → s.line = none
  program : s.error ≠ none → s.text = none ∧ s.contains = []

/-- An error is compared by its words and by its line. -/
theorem errorMismatch?_eq_none_iff {expected : Text} : s.errorMismatch? expected e = none ↔
    expected <:+: e.describe.toList ∧
      ∀ n, s.line = some n → ∃ l, e.rootCause.location? = some l ∧ l.line = n := by
  rw [errorMismatch?]
  by_cases hmessage : expected <:+: e.describe.toList
  · rw [if_neg (by simpa using Text.has_iff.2 hmessage), and_iff_right hmessage]
    split
    · next hline => simp [hline]
    · next n l hline hlocation => simp [hline, hlocation]
    · next n hline hlocation => simp [hline, hlocation]
  · have hno : Text.has e.describe.toList expected = false :=
      Bool.eq_false_iff.2 fun h => hmessage (Text.has_iff.1 h)
    rw [if_pos (by simpa using hno)]
    exact ⟨nofun, fun h => absurd h.1 hmessage⟩

/-- A program is compared by its text and by what is in its source. -/
theorem programMismatch?_eq_none_iff : s.programMismatch? p = none ↔
    (∀ t, s.text = some t → p.staticText = t) ∧ ∀ t ∈ s.contains, t <:+: p.source := by
  have habsent : s.contains.filter (fun t => !Text.has p.source t) = [] ↔
      ∀ t ∈ s.contains, t <:+: p.source := by
    simp [List.filter_eq_nil_iff, Text.has_iff]
  rw [programMismatch?, ← habsent]
  split
  · next expected htext => grind
  · next htext => grind

/-- **Nothing differs exactly if what is looked at is as it should be.** -/
theorem mismatch?_eq_none_iff : s.mismatch? build = none ↔ s.Checked build := by
  rw [mismatch?.eq_def]
  -- An error that was expected, a program that was, and two ways to be mistaken.
  split
  · next expected e herror =>
    rw [errorMismatch?_eq_none_iff]
    refine ⟨fun h => .failed herror h.1 h.2, fun h => ?_⟩
    cases h with
    | failed herror' hmessage hline =>
      obtain rfl : expected = _ := Option.some.inj (herror.symm.trans herror')
      exact ⟨hmessage, hline⟩
  · next expected p herror =>
    refine ⟨nofun, fun h => ?_⟩
    cases h with
    | built hnone => rw [herror] at hnone; cases hnone
  · next e hnone =>
    refine ⟨nofun, fun h => ?_⟩
    cases h with
    | failed herror => rw [herror] at hnone; cases hnone
  · next p hnone =>
    rw [programMismatch?_eq_none_iff]
    refine ⟨fun h => .built hnone h.1 h.2, fun h => ?_⟩
    cases h with
    | built _ htext hcontains => exact ⟨htext, hcontains⟩

/-- What is looked at is all there is exactly if the settings are of one kind. -/
theorem Checked.fulfilled_iff (h : s.Checked build) : s.Fulfilled build ↔ s.OneSided := by
  cases h with
  | @failed expected e herror hmessage hline =>
    constructor
    · intro hall
      refine ⟨fun hnone => ?_, fun _ => ⟨?_, ?_⟩⟩
      · rw [herror] at hnone
        cases hnone
      · refine Option.eq_none_iff_forall_ne_some.2 fun t ht => ?_
        obtain ⟨p, hp, -⟩ := hall.text t ht
        cases hp
      · refine List.eq_nil_iff_forall_not_mem.2 fun t ht => ?_
        obtain ⟨p, hp, -⟩ := hall.contains t ht
        cases hp
    · intro hsided
      obtain ⟨htext, hcontains⟩ := hsided.program (by simp [herror])
      refine ⟨fun other hother => ?_, fun n hn => ?_, by simp [htext], by simp [hcontains]⟩
      · obtain rfl : expected = other := Option.some.inj (herror.symm.trans hother)
        exact ⟨e, rfl, hmessage⟩
      · obtain ⟨l, hl, hn⟩ := hline n hn
        exact ⟨e, l, rfl, hl, hn⟩
  | @built p herror htext hcontains =>
    constructor
    · intro hall
      refine ⟨fun _ => ?_, fun hsome => absurd herror hsome⟩
      refine Option.eq_none_iff_forall_ne_some.2 fun n hn => ?_
      obtain ⟨e, l, he, -⟩ := hall.line n hn
      cases he
    · intro hsided
      refine ⟨by simp [herror], by simp [hsided.line herror], fun t ht => ?_, fun t ht => ?_⟩
      · exact ⟨p, rfl, htext t ht⟩
      · exact ⟨p, rfl, hcontains t ht⟩

end Settings

/-! ## Runs

Before anything is compared the fixture must be read, its version of the tools too, and its path must
have an absolute form.  If one of these fails, so does the fixture. -/

namespace Fixture

/-- What the file at a path leads to: the fixture in it, and the build of its template. -/
structure Builds (d : Disk) (cwd : Place) (running : Version) (path : Path) (f : Fixture)
    (build : Except BuildError Program) : Prop where
  read : Fixture.read d cwd path = .ok f
  build : ∃ version file, f.toolsVersion running = .ok version ∧
    (d.generator cwd running false).absolute path = .ok file ∧ build = f.build d cwd version file

variable {d : Disk} {cwd : Place} {running : Version} {path : Path}

theorem mismatch?_eq_none_iff {f : Fixture} : f.mismatch? d cwd running path = none ↔
    ∃ version file, f.toolsVersion running = .ok version ∧
      (d.generator cwd running false).absolute path = .ok file ∧
      f.settings.Checked (f.build d cwd version file) := by
  rw [mismatch?]
  split
  · next m hversion => simp [hversion]
  · next version e hversion hpath => simp [hversion, hpath]
  · next version file hversion hpath =>
    simp [hversion, hpath, Settings.mismatch?_eq_none_iff]

/-- **A fixture passes exactly if its template could be built and what is looked at is as its settings
say.**  Of the settings of such a fixture none is overlooked exactly if they are about an error only or
about a program only: a line is overlooked if no error is expected, and what a program must be like if
one is. -/
theorem passed_iff_checked (d : Disk) (cwd : Place) (running : Version) (path : Path) :
    ((run d cwd running path).passed = true ↔
      ∃ f build, Builds d cwd running path f build ∧ f.settings.Checked build) ∧
    ∀ (s : Settings) (build : Except BuildError Program),
      s.Checked build ∧ s.Fulfilled build ↔ s.Checked build ∧ s.OneSided := by
  refine ⟨?_, fun s build => and_congr_right fun h => h.fulfilled_iff⟩
  rw [FixtureResult.passed, run]
  cases hread : read d cwd path with
  | error m =>
    refine ⟨nofun, ?_⟩
    rintro ⟨f, build, hbuilds, -⟩
    rw [hbuilds.read] at hread
    cases hread
  | ok f =>
    dsimp only
    rw [Option.isNone_iff_eq_none, mismatch?_eq_none_iff]
    constructor
    · rintro ⟨version, file, hversion, hpath, hchecked⟩
      exact ⟨f, _, ⟨hread, version, file, hversion, hpath, rfl⟩, hchecked⟩
    · rintro ⟨f', build, hbuilds, hchecked⟩
      obtain rfl : f' = f := Except.ok.inj (hbuilds.read.symm.trans hread)
      obtain ⟨version, file, hversion, hpath, rfl⟩ := hbuilds.build
      exact ⟨version, file, hversion, hpath, hchecked⟩

end Fixture
end Templating
