import Templating.Proofs.Include.Memory
import Templating.Proofs.Include.Nesting

/-!
# The version gate

A version directive can only turn away tools that are too old for a file.  So what one tool expands, a
newer one expands to the same document, and apart from the gate the two fail alike.

## What is here

* Versions are ordered by `Version.order`; `Version.older_of_le` says that a version that is older than
  another one is older than everything above it.
* `BuildError.Outdated` are the errors of the gate, wherever in the included files it was.
* `Expander.newerRule` compares two expansions that start alike with different tools: they stay alike
  until the older tool is turned away.
* `Generator.expand_newer` is what follows for templates.
-/

set_option autoImplicit false

namespace Templating

/-! ## The order of versions

All that is needed of the order is that what is older than some version is older than all above it. -/

namespace Version

instance : LE Version := ⟨fun v w => (v.order w).isLE = true⟩

instance (v w : Version) : Decidable (v ≤ w) := inferInstanceAs (Decidable (_ = true))

theorem older_of_le {v w required : Version} (h : v ≤ w) (hw : w.older required = true) :
    v.older required = true := by
  rw [older, decide_eq_true_eq, order] at hw ⊢
  exact Std.TransCmp.lt_of_isLE_of_lt h hw

end Version

/-! ## The gate of one file

The running tool is looked at in one check only: whether it is older than the version in the directive.
So an outline that an older tool gets is what a newer one gets, and errors are the same, but for those
of that check. -/

/-- The error says that some file needs a newer tool than the running one. -/
def BuildError.Outdated (e : BuildError) : Prop :=
  ∃ required running l, e.rootCause = .minimumToolsVersionNotMet required running none l

/-- A wrapper does not change what an error is about. -/
theorem BuildError.Outdated.failure {e : BuildError} (h : e.Outdated) (tag : IncludeTag)
    (file : SourceFile) : (tag.failure file e).Outdated := h

variable {running newer : Version}

/-- A tool is turned away by a directive, or it and every newer one get through. -/
theorem Directive.checkTools_of_le (h : running ≤ newer) (d : Document)
    (directive : Option Directive) :
    (∃ e, checkTools d running directive = .error e ∧ e.Outdated) ∨
      checkTools d running directive = .ok () ∧ checkTools d newer directive = .ok () := by
  cases directive with
  | none => exact .inr ⟨rfl, rfl⟩
  | some directive =>
    rw [checkTools, checkTools]
    by_cases hrunning : running.older directive.version = true
    · rw [if_pos hrunning]
      exact .inl ⟨_, rfl, _, _, _, rfl⟩
    · have hnewer : ¬ newer.older directive.version = true :=
        fun hnewer => hrunning (Version.older_of_le h hnewer)
      rw [if_neg hrunning, if_neg hnewer]
      exact .inr ⟨rfl, rfl⟩

/-- The gate is all that depends on the running tool in the outline of a file. -/
theorem Outline.ofText_of_le (h : running ≤ newer) (path : Path) (text : Text) :
    (∃ e, ofText running path text = .error e ∧ e.Outdated) ∨
      ofText newer path text = ofText running path text := by
  rw [ofText, ofText]
  cases hfind : Directive.find? (.ofSource path text) with
  | error e => exact .inr rfl
  | ok directive =>
    rcases Directive.checkTools_of_le h (.ofSource path text) directive with
      ⟨e, hcheck, houtdated⟩ | ⟨hcheck, hnewer⟩
    · refine .inl ⟨e, ?_, houtdated⟩
      exact bind_eq_error.2 (.inr ⟨directive, rfl, bind_eq_error.2 (.inl hcheck)⟩)
    · refine .inr ?_
      show (Directive.checkTools _ newer directive).bind _
        = (Directive.checkTools _ running directive).bind _
      rw [hcheck, hnewer]

/-- What the older tool accepts, the newer one does. -/
theorem Outline.ofText_of_le_of_ok {path : Path} {text : Text} {o : Outline} (h : running ≤ newer)
    (ho : ofText running path text = .ok o) : ofText newer path text = .ok o := by
  rcases ofText_of_le h path text with ⟨e, he, -⟩ | hsame
  · rw [ho] at he
    cases he
  · rw [hsame, ho]

/-! ## Two expansions

Both tools go through the tags in the same order and remember the same, as long as the older one is not
turned away.  Once it is, nothing is said any more: its error goes all the way out. -/

namespace Expander

variable {s : Surroundings}

/-- Expanding the file of a tag when it is read for the first time and accepted. -/
theorem expandTag_of_ofText {stack : List Path} {file : SourceFile} {tag : IncludeTag} {x : Expander}
    {text : Text} {encoding : TextEncoding} {o : Outline} (hx : x.find? tag.target = none)
    (hs : ∀ q ∈ stack, ¬ Path.Same q tag.target) (hf : (s.files.find? tag.target).isSome = true)
    (hread : s.files.readText tag.target none = .ok (text, encoding))
    (ho : Outline.ofText s.running tag.target text = .ok o) :
    expandTag s stack file tag x =
      match expandTags s (stack ++ [tag.target]) o.file o.start o.tags (x.note tag.target) with
      | (.error e, x') => (.error (tag.failure file e), x')
      | (.ok pieces, x') => (.ok ⟨o.file, pieces⟩, x'.remember tag.target ⟨o.file, pieces⟩) := by
  rw [expandTag, hx]
  dsimp only
  rw [dif_neg (by simpa using hs), dif_pos hf, hread]
  dsimp only
  rw [ho]
  rfl

/-- Two expansions that start alike stay alike until the older tool is turned away. -/
theorem newerRule (s : Surroundings) (h : s.running ≤ newer) :
    Rule s
      (fun stack file tag x r x' => (∃ e, r = .error e ∧ e.Outdated) ∨
        expandTag { s with running := newer } stack file tag x = (r, x'))
      (fun stack file cursor tags x r x' => (∃ e, r = .error e ∧ e.Outdated) ∨
        expandTags { s with running := newer } stack file cursor tags x = (r, x')) where
  -- No file is looked at in these cases, and so no tool either.
  known hx := by
    refine .inr ?_
    rw [expandTag, hx]
  cyclic hx hs := by
    refine .inr ?_
    rw [expandTag, hx]
    exact dif_pos (by simpa using hs)
  missing hx hs hf := by
    refine .inr ?_
    rw [expandTag, hx]
    dsimp only
    rw [dif_neg (by simpa using hs), dif_neg (by simp [hf])]
  unreadable hx hs hf hread := by
    refine .inr ?_
    rw [expandTag, hx]
    dsimp only
    rw [dif_neg (by simpa using hs), dif_pos hf, hread]
    rfl
  refused hx hs hf hread ho := by
    rcases Outline.ofText_of_le h _ _ with ⟨e, he, houtdated⟩ | hsame
    · obtain rfl := Except.error.inj (ho.symm.trans he)
      exact .inl ⟨_, rfl, houtdated.failure _ _⟩
    · refine .inr ?_
      rw [expandTag, hx]
      dsimp only
      rw [dif_neg (by simpa using hs), dif_pos hf, hread]
      dsimp only
      rw [hsame, ho]
      rfl
  failed hx hs hf hread ho _ ih := by
    rcases ih with ⟨e, ⟨⟩, houtdated⟩ | ih
    · exact .inl ⟨_, rfl, houtdated.failure _ _⟩
    · have ho' := (Outline.ofText_of_le_of_ok h ho)
      refine .inr ?_
      rw [expandTag_of_ofText (s := { s with running := newer }) hx hs hf hread ho', ih]
  expanded hx hs hf hread ho _ ih := by
    rcases ih with ⟨e, ⟨⟩, -⟩ | ih
    have ho' := (Outline.ofText_of_le_of_ok h ho)
    refine .inr ?_
    rw [expandTag_of_ofText (s := { s with running := newer }) hx hs hf hread ho', ih]
  nil := by
    intro _ _ _ _
    refine .inr ?_
    rw [expandTags]
  stopped _ ih := by
    rcases ih with ⟨e, ⟨⟩, houtdated⟩ | ih
    · exact .inl ⟨_, rfl, houtdated⟩
    · refine .inr ?_
      rw [expandTags, ih]
  stoppedLater _ ih _ ihlater := by
    rcases ih with ⟨e, ⟨⟩, -⟩ | ih
    rcases ihlater with houtdated | ihlater
    · exact .inl houtdated
    · refine .inr ?_
      rw [expandTags, ih]
      dsimp only
      rw [ihlater]
  cons _ ih _ ihlater := by
    rcases ih with ⟨e, ⟨⟩, -⟩ | ih
    rcases ihlater with ⟨e, ⟨⟩, -⟩ | ihlater
    refine .inr ?_
    rw [expandTags, ih]
    dsimp only
    rw [ihlater]

/-- The same of a file that is expanded by itself. -/
theorem expand_of_le (h : s.running ≤ newer) (path : Path) (text : Text) (x : Expander) :
    (∃ e, (expand s path text x).1 = .error e ∧ e.Outdated) ∨
      expand { s with running := newer } path text x = expand s path text x := by
  cases ho : Outline.ofText s.running path text with
  | error e =>
    rw [expand, expand, ho]
    rcases Outline.ofText_of_le h path text with ⟨e', he', houtdated⟩ | hsame
    · obtain rfl := Except.error.inj (ho.symm.trans he')
      exact .inl ⟨e, rfl, houtdated⟩
    · rw [hsame, ho]
      exact .inr rfl
  | ok o =>
    rw [expand_of_ofText ho, expand_of_ofText (Outline.ofText_of_le_of_ok h ho)]
    rcases (newerRule s h).tags [path] o.file o.start o.tags x with ⟨e, he, houtdated⟩ | hrun
    · exact .inl ⟨e, map_eq_error.2 he, houtdated⟩
    · rw [hrun]
      exact .inr rfl

end Expander

/-! ## Templates

The same files are there for both tools, and the template is found and read in the same way. -/

namespace Generator

variable {g : Generator} {newer : Version} {template : Path} {encoding : Option TextEncoding}

/-- The generator with another tool. -/
def withTool (g : Generator) (toolsVersion : Version) : Generator := { g with toolsVersion }

/-- Either the older tool is turned away, or both do the same. -/
theorem expand_withTool_of_le (h : g.toolsVersion ≤ newer) (template : Path)
    (encoding : Option TextEncoding) :
    (∃ e, (g.expand template encoding).result = .error e ∧ e.Outdated) ∨
      (g.withTool newer).expand template encoding = g.expand template encoding := by
  cases hpath : g.absolute template with
  | error e =>
    have hpath' : (g.withTool newer).absolute template = .error e := hpath
    rw [expand, expand, hpath, hpath']
    exact .inr rfl
  | ok path =>
    have hpath' : (g.withTool newer).absolute template = .ok path := hpath
    cases hread : g.files.readText path encoding with
    | error e =>
      have hread' : (g.withTool newer).files.readText path encoding = .error e := hread
      rw [expand_of_unreadable hpath hread, expand_of_unreadable hpath' hread']
      exact .inr rfl
    | ok r =>
      have hread' : (g.withTool newer).files.readText path encoding = .ok r := hread
      rw [expand_of_readText hpath hread, expand_of_readText hpath' hread']
      rcases Expander.expand_of_le (s := g.surroundings) h path r.1 { reads := [path] } with
        ⟨e, he, houtdated⟩ | hsame
      · exact .inl ⟨e, map_eq_error.2 he, houtdated⟩
      · have hsame' : Expander.expand (g.withTool newer).surroundings path r.1 { reads := [path] }
            = Expander.expand g.surroundings path r.1 { reads := [path] } := hsame
        rw [hsame']
        exact .inr rfl

/-- What another tool makes of a template, compared with an older one. -/
structure Supersedes (newer g : Generator) (template : Path) (encoding : Option TextEncoding) :
    Prop where
  /-- What the older one expands, it expands to the same document. -/
  expanded : ∀ t, (g.expand template encoding).result = .ok t →
    (newer.expand template encoding).result = .ok t
  /-- Where the older one fails, but not because it is too old, it fails in the same way. -/
  failed : ∀ e, (g.expand template encoding).result = .error e → ¬ e.Outdated →
    (newer.expand template encoding).result = .error e
  /-- Where it is too old itself, the older one is too old as well. -/
  outdated : ∀ e, (newer.expand template encoding).result = .error e → e.Outdated →
    ∃ e', (g.expand template encoding).result = .error e' ∧ e'.Outdated

/-- **A newer tool does what an older one does,** except that it may get through where the older one is
turned away. -/
theorem expand_newer (h : g.toolsVersion ≤ newer) (template : Path)
    (encoding : Option TextEncoding) : (g.withTool newer).Supersedes g template encoding := by
  rcases expand_withTool_of_le h template encoding with ⟨e, he, houtdated⟩ | hsame
  · refine ⟨fun t ht => ?_, fun e' he' hother => ?_, fun _ _ _ => ⟨e, he, houtdated⟩⟩
    · rw [he] at ht
      cases ht
    · obtain rfl := Except.error.inj (he.symm.trans he')
      exact absurd houtdated hother
  · refine ⟨fun t ht => ?_, fun e he _ => ?_, fun e he houtdated => ⟨e, ?_, houtdated⟩⟩
    · rw [hsame, ht]
    · rw [hsame, he]
    · rw [← hsame, he]

/-- A template with a file in it that needs more than the template does.  Two of four tools are turned
away there, by the file and not by the template, and of the other two the newer one changes nothing. -/
theorem expand_newer_through_include :
    let a : Path × Text :=
      (.ofString "/a", "# dswift-tools-version:1.0.10\n<%@include file=\"b\"%>".toList)
    let b : Path × Text := (.ofString "/b", "// dswift-tools-version:1.0.12\nx".toList)
    let g : Generator := ⟨.ofTexts [a, b], .ofString "/", ⟨1, 0, 12, [], []⟩, false⟩
    let oldest : Version := ⟨1, 0, 10, [], []⟩
    let older : Version := ⟨1, 0, 11, [], []⟩
    let newer : Version := ⟨1, 0, 12, [], ["1".toList]⟩
    oldest ≤ older ∧ older ≤ g.toolsVersion ∧ g.toolsVersion ≤ newer ∧
      (∃ e, ((g.withTool oldest).expand a.1 none).result = .error e ∧ e.Outdated) ∧
      (∃ e, ((g.withTool older).expand a.1 none).result = .error e ∧ e.Outdated) ∧
      ∃ t, (g.expand a.1 none).result = .ok t ∧
        ((g.withTool newer).expand a.1 none).result = .ok t := by
  intro a b g oldest older newer
  have holdest : (g.withTool oldest).toolsVersion ≤ older := by decide
  have hnewer : g.toolsVersion ≤ newer := by decide
  -- The error is raised in `b` and wrapped by the tag in `a`.
  let e : BuildError := .failedToIncludeFile ['b'] ⟨a.1, 2, ⟨30, 51⟩⟩
    (.minimumToolsVersionNotMet ⟨1, 0, 12, [], []⟩ older none ⟨b.1, 1, ⟨0, 31⟩⟩)
  have hrefused : ((g.withTool older).expand a.1 none).result = .error e :=
    expand_eq_error_of_within (by decide +kernel)
  have houtdated : e.Outdated := ⟨_, _, _, rfl⟩
  obtain ⟨t, ht⟩ := @exists_expand g a.1 none (by decide +kernel)
  exact ⟨holdest, by decide, hnewer,
    (expand_newer holdest a.1 none).outdated e hrefused houtdated, ⟨e, hrefused, houtdated⟩,
    t, ht, (expand_newer hnewer a.1 none).expanded t ht⟩

end Generator
end Templating
