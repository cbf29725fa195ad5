import Templating.Proofs.Block.Scan
import Templating.Proofs.FileSystem
import Templating.Proofs.Include.Memory
import Templating.Proofs.Text.Lines

/-!
# Templates without tags

A template with no delimiter and no directive in it is put out as it is, behind the banner, except that
its lines no longer end in carriage returns: a text is put out line by line, and a carriage return in
front of a line break counts as part of the break.

## What is here

* `Outline.ofText_of_plain` says what such a template looks like to expansion.
* `Plan.staticText_literals` puts the lines of a text back together.
* `Generator.program_of_plain` is the conclusion.
-/

set_option autoImplicit false

namespace Templating

/-! ## Expansion

Without a delimiter there are no include tags, and without a directive nothing is left out.  So the
expansion of the template is the document that is made of its text. -/

/-- No include tags are found. -/
theorem IncludeTag.findAll_of_plain {path : Path} {text : Text} (h : text.Plain) :
    findAll (.ofSource path text) = .ok [] := by
  have hopening : ¬ Tag.inclusion.opening <:+: text :=
    fun hpart => h.opening ((List.prefix_append outerOpening Tag.inclusion.suffix).isInfix.trans hpart)
  rw [findAll, findFrom, Document.text_ofSource]
  split
  · rfl
  · next hcut =>
    rw [Text.cut?_eq_none_iff.2 hopening] at hcut
    cases hcut

/-- All of the text belongs to the body, and there is nothing to replace in it. -/
theorem Outline.ofText_of_plain {running : Version} {path : Path} {text : Text} (h : text.Plain)
    (hdirective : ¬ Directive.Begins text) :
    Outline.ofText running path text = .ok ⟨⟨path, text⟩, 0, []⟩ := by
  have hfind : Directive.find? (.ofSource path text) = .ok none := by
    rw [Directive.find?, Document.text_ofSource, Directive.value?_eq_none_iff.2 hdirective]
  rw [ofText, hfind, IncludeTag.findAll_of_plain h]
  rfl

/-- Nothing is changed, and nothing is remembered. -/
theorem Expander.expand_of_plain {s : Surroundings} {path : Path} {text : Text} (h : text.Plain)
    (hdirective : ¬ Directive.Begins text) (x : Expander) :
    expand s path text x = (.ok (.ofSource path text), x) := by
  rw [expand_of_ofText (Outline.ofText_of_plain h hdirective), expandTags]
  rfl

/-! ## Plans

The scan has a single literal text, unless the template is empty, and then it has nothing.  Its lines
are put out one by one, each but the last with a line break behind it. -/

namespace Plan

/-- Lines are put out with line breaks in between. -/
theorem staticText_literals : ∀ {lines : List Text}, lines ≠ [] →
    (literals lines).flatMap Statement.staticText = ['\n'].intercalate lines
  | [], h => absurd rfl h
  | [last], _ => by
    rw [literals]
    split
    · next h => rw [h]; rfl
    · simp [Statement.staticText]
  | line :: l :: lines, _ => by
    rw [literals, List.flatMap_cons, staticText_literals (List.cons_ne_nil l lines),
      List.intercalate_cons_cons]
    rfl

/-- The plan of a text without delimiters puts out its lines. -/
theorem ofBlocks_of_plain {d : Document} (h : d.text.Plain) :
    ∃ p, ofBlocks d ((d.scan .standard).failure? d) (d.scan .standard).blocks = .ok p ∧
      p.staticText = d.text.plainBreaks := by
  rw [Document.scan, Scan.ofText_of_plain h]
  by_cases hnil : d.text = []
  · rw [if_pos hnil, hnil]
    exact ⟨⟨[], []⟩, rfl, rfl⟩
  · rw [if_neg hnil]
    refine ⟨_, rfl, ?_⟩
    have hne : d.text.lines.map Text.chomp ≠ [] :=
      fun h => Text.lines_ne_nil d.text (List.map_eq_nil_iff.1 h)
    rw [Text.plainBreaks_eq_intercalate, ← staticText_literals hne, staticText]
    simp only [List.append_nil]
    rfl

end Plan

/-! ## Programs

A banner may be put in front, which is a literal text like any other. -/

namespace Program

/-- What stands in front of the output of a template. -/
def lead (c : EmitContext) : Text := if c.banner then banner c.templateName c.toolsVersion else []

/-- What is put out with a banner. -/
theorem staticText_withBanner (c : EmitContext) (p : Plan) :
    (withBanner c p).staticText = lead c ++ p.staticText := by
  rw [withBanner, lead]
  split
  · rfl
  · rfl

/-- The program of a text without delimiters. -/
theorem ofDocument_of_plain (c : EmitContext) {d : Document} (h : d.text.Plain) :
    ∃ p, ofDocument c d = .ok p ∧ p.staticText = lead c ++ d.text.plainBreaks := by
  obtain ⟨plan, hplan, htext⟩ := Plan.ofBlocks_of_plain h
  rw [ofDocument, emit, hplan]
  refine ⟨_, rfl, ?_⟩
  rw [← htext]
  exact staticText_withBanner c plan

end Program

namespace Generator

variable {g : Generator} {template path : Path} {encoding : Option TextEncoding}
  {used : TextEncoding} {text : Text}

/-- Such a template has a program, and it puts out its lines. -/
theorem exists_program_of_plain (serial : Nat) (hpath : g.absolute template = .ok path)
    (hread : g.files.readText path encoding = .ok (text, used)) (h : text.Plain)
    (hdirective : ¬ Directive.Begins text) :
    ∃ p, (g.program serial template encoding).result = .ok p ∧
      p.staticText = Program.lead (g.context serial ⟨path, .ofSource path text, used⟩)
        ++ text.plainBreaks := by
  have hplain : (Document.ofSource path text).text.Plain := by rwa [Document.text_ofSource]
  have hexpand : (g.expand template encoding).result = .ok ⟨path, .ofSource path text, used⟩ := by
    rw [expand_of_readText hpath hread, Expander.expand_of_plain h hdirective]
    rfl
  obtain ⟨p, hp, htext⟩ :=
    Program.ofDocument_of_plain (g.context serial ⟨path, .ofSource path text, used⟩) hplain
  rw [Document.text_ofSource] at htext
  refine ⟨p, ?_, htext⟩
  rw [program, hexpand]
  exact hp

/-- **A template without tags is put out as it is,** but for the carriage returns that end its lines,
so it is put out character for character exactly if it has none of them. -/
theorem program_of_plain (serial : Nat) (hpath : g.absolute template = .ok path)
    (hread : g.files.readText path encoding = .ok (text, used)) (h : text.Plain)
    (hdirective : ¬ Directive.Begins text) :
    ∃ p, (g.program serial template encoding).result = .ok p ∧
      let lead := if g.banner then Program.banner (path.fileName?.getD []) g.toolsVersion else []
      p.staticText = lead ++ text.plainBreaks ∧
        (p.staticText = lead ++ text ↔ ¬ ['\r', '\n'] <:+: text ∧ text.getLast? ≠ some '\r') := by
  obtain ⟨p, hp, htext⟩ := exists_program_of_plain serial hpath hread h hdirective
  refine ⟨p, hp, htext, ?_⟩
  rw [htext, ← Text.plainBreaks_eq_self_iff]
  exact List.append_right_inj _

/-- A template of two lines, of which the first one ends in a carriage return. -/
theorem program_of_two_lines :
    let a : Path × Text := (.ofString "/project/main.dswift", "one\r\ntwo".toList)
    let g : Generator := ⟨.ofTexts [a], .ofString "/", ⟨1, 0, 10, [], []⟩, true⟩
    g.absolute a.1 = .ok a.1 ∧ g.files.readText a.1 none = .ok (a.2, .utf8) ∧ a.2.Plain ∧
      ¬ Directive.Begins a.2 ∧
      ∃ p, (g.program 0 a.1 none).result = .ok p ∧
        p.staticText = Program.banner "main.dswift".toList g.toolsVersion ++ "one\ntwo".toList := by
  intro a g
  have hpath : g.absolute a.1 = .ok a.1 := by decide +kernel
  have hread : g.files.readText a.1 none = .ok (a.2, .utf8) :=
    FileSystem.readText_singleton a (by simp [a])
  have hbare : a.2.Bare := by simp [Text.Bare, a]
  have hdirective : ¬ Directive.Begins a.2 := Directive.value?_eq_none_iff.1 (by decide)
  obtain ⟨p, hp, htext, -⟩ := program_of_plain 0 hpath hread hbare.plain hdirective
  refine ⟨hpath, hread, hbare.plain, hdirective, p, hp, ?_⟩
  rw [htext]
  decide +kernel

/-- A carriage return in front of a line break is not put out. -/
theorem program_of_carriage_return :
    let a : Path × Text := (.ofString "/project/main.dswift", "a\r\n".toList)
    let g : Generator := ⟨.ofTexts [a], .ofString "/", ⟨1, 0, 10, [], []⟩, false⟩
    g.files.readText a.1 none = .ok (a.2, .utf8) ∧ a.2.Plain ∧ ¬ Directive.Begins a.2 ∧
      ∃ p, (g.program 0 a.1 none).result = .ok p ∧ p.staticText ≠ a.2 := by
  intro a g
  have hpath : g.absolute a.1 = .ok a.1 := by decide +kernel
  have hread : g.files.readText a.1 none = .ok (a.2, .utf8) :=
    FileSystem.readText_singleton a (by simp [a])
  have hbare : a.2.Bare := by simp [Text.Bare, a]
  have hdirective : ¬ Directive.Begins a.2 := Directive.value?_eq_none_iff.1 (by decide)
  obtain ⟨p, hp, htext⟩ := exists_program_of_plain 0 hpath hread hbare.plain hdirective
  refine ⟨hread, hbare.plain, hdirective, p, hp, ?_⟩
  rw [htext]
  decide +kernel

end Generator
end Templating
