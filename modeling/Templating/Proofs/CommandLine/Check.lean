import Templating.CommandLine.Run
import Templating.Proofs.Disk.Discovery
import Templating.Proofs.Program.Schedule

/-!
# Checking templates

A check builds all templates that some paths name, side by side, and sums up how that went.  Neither the
way the paths are spelled and listed nor the order in which the builds get on makes a difference.

## What is here

* `CommandLine.checked_of_agree`: the names of classes do not show in the outcome of a check.
* `CommandLine.IsCheck` says what a check is to find and to tell.
* `CommandLine.runCheck_unaffected`: every check does so, and two checks of the same places agree.
-/

set_option autoImplicit false

namespace Templating

/-! ## One place, one build

A template is looked up by its absolute path, so the spelling of its path has no part in its build.
What is left are the serial numbers, which name the classes and nothing else. -/

namespace Generator

/-- Another spelling of a path gives the same expansion. -/
theorem expand_of_same (g : Generator) (encoding : Option TextEncoding) {p q : Path}
    (h : Path.Same p q) (hp : p.text ≠ []) : g.expand p encoding = g.expand q encoding := by
  have habsolute : g.absolute p = g.absolute q := by
    rw [absolute, absolute, ← Path.absolute?_of_same h, Path.absolute?, if_neg hp]
  rw [expand, expand, habsolute]

/-- Other spellings of some paths give the same builds. -/
theorem batchFrom_of_same (g : Generator) (encoding : Option TextEncoding) {templates templates' : List Path}
    (h : List.Forall₂ Path.Same templates templates') (hne : ∀ t ∈ templates, t.text ≠ [])
    (serial : Nat) : g.batchFrom encoding serial templates = g.batchFrom encoding serial templates' := by
  induction h generalizing serial with
  | nil => rfl
  | cons hsame _ ih =>
    have hexpand := g.expand_of_same encoding hsame (hne _ (List.mem_cons_self ..))
    rw [batchFrom, batchFrom, program, program, hexpand,
      ih (fun t ht => hne t (List.mem_cons_of_mem _ ht))]

/-- The build of a template by itself succeeds. -/
def succeeds (g : Generator) (encoding : Option TextEncoding) (template : Path) : Bool :=
  (g.program 0 template encoding).result.isOk

end Generator

/-! ## Outcomes

A check looks at its builds in two ways: it counts those that failed and prints their errors.  Neither
depends on the name of a class, so builds that agree up to that name have one outcome. -/

namespace CommandLine

variable {s : Surface} {d : Disk} {files : FileSystem} {templates : List Path}
  {results results' : List (Logged Program)}

/-- Both builds succeed or neither does. -/
theorem isOk_of_agree {r r' : Logged Program} (h : r.SameButName r') :
    r.result.isOk = r'.result.isOk := by
  obtain ⟨-, hresult⟩ := h
  revert hresult
  generalize r.result = result, r'.result = result'
  rintro (_ | _) <;> rfl

/-- The same errors are printed. -/
theorem templateReport_of_agree {r r' : Logged Program} (h : r.SameButName r') (template : Path) :
    templateReport files template r = templateReport files template r' := by
  obtain ⟨-, hresult⟩ := h
  rw [templateReport, templateReport]
  revert hresult
  generalize r.result = result, r'.result = result'
  rintro (_ | _) <;> rfl

/-- As many of them fail. -/
theorem failures_of_agree (h : List.Forall₂ Logged.SameButName results results') :
    failures results = failures results' := by
  induction h with
  | nil => rfl
  | cons hr _ ih =>
    rw [failures, failures, List.countP_cons, List.countP_cons, ← failures, ← failures, ih,
      isOk_of_agree hr]

/-- And their reports are the same, in order. -/
theorem reports_of_agree (h : List.Forall₂ Logged.SameButName results results')
    (templates : List Path) : templates.zipWith (templateReport files) results
      = templates.zipWith (templateReport files) results' := by
  induction h generalizing templates with
  | nil => rfl
  | cons hr _ ih =>
    cases templates with
    | nil => rfl
    | cons template templates =>
      rw [List.zipWith_cons_cons, List.zipWith_cons_cons, templateReport_of_agree hr, ih]

/-- The names of classes do not show in the outcome of a check. -/
theorem checked_of_agree (h : List.Forall₂ Logged.SameButName results results') (d : Disk)
    (files : FileSystem) (templates : List Path) :
    checked d files templates results = checked d files templates results' := by
  rw [checked, checked, failures_of_agree h, reports_of_agree h]

/-! ## Checks

What a check is to do is said of the templates that it finds, whatever order they get on in.  Two checks
of the same places find the same templates, up to spelling, so both tell the same. -/

section

variable {g : Generator} {encoding : Option TextEncoding}

/-- What a check of the templates that some paths name is to do: it finds them, and whatever the order in
which their builds get on, it ends with the results that they have by themselves, and tells how many
succeed. -/
structure IsCheck (s : Surface) (d : Disk) (g : Generator) (encoding : Option TextEncoding)
    (paths found : List Path) (o : Outcome) : Prop where
  finds : Discovery.Finds d s.workingDirectory paths found
  ends (counter : Nat) (schedule : List Nat) (h : ∀ i < found.length, 3 ≤ schedule.count i) :
    ((Builds.start counter found).run g encoding schedule).Finished
  results (counter : Nat) (schedule : List Nat)
    (h : ((Builds.start counter found).run g encoding schedule).Finished) :
    ∃ results : List (Logged Program),
      ((Builds.start counter found).run g encoding schedule).stages.map Prod.snd
        = results.map .finished ∧
      List.Forall₂ (fun template r => r.SameButName (g.program 0 template encoding)) found results ∧
      checked d g.files found results = o
  summary : found ≠ [] → ∃ (reports : Text) (passed failed : Nat),
    passed = found.countP (g.succeeds encoding) ∧ passed + failed = found.length ∧
    o.stderr = reports ++
      messageLine s!"checked {found.length} template(s): {passed} ok, {failed} failed"
  exitCode : o.exitCode = 0 ↔ found ≠ [] ∧ ∀ template ∈ found, g.succeeds encoding template = true

/-- The builds that fail are those of the templates that do not succeed by themselves. -/
theorem failures_of_yields (h : g.Yields encoding templates results) :
    failures results = templates.countP fun template => !g.succeeds encoding template := by
  induction h with
  | nil => rfl
  | cons hr _ ih =>
    obtain ⟨serial, rfl⟩ := hr
    rw [failures, List.countP_cons, List.countP_cons, ← failures, ih,
      isOk_of_agree (g.program_sameButName _ encoding serial 0), Generator.succeeds]

/-- What is told of the builds of some templates. -/
theorem checked_of_yields (d : Disk) (files : FileSystem) (h : g.Yields encoding templates results) :
    (templates ≠ [] → ∃ (reports : Text) (passed failed : Nat),
      passed = templates.countP (g.succeeds encoding) ∧ passed + failed = templates.length ∧
      (checked d files templates results).stderr = reports ++
        messageLine s!"checked {templates.length} template(s): {passed} ok, {failed} failed") ∧
    ((checked d files templates results).exitCode = 0 ↔
      templates ≠ [] ∧ ∀ template ∈ templates, g.succeeds encoding template = true) := by
  have hcount : templates.countP (g.succeeds encoding) + failures results = templates.length := by
    rw [failures_of_yields h, List.length_eq_countP_add_countP (g.succeeds encoding)]
    simp
  rw [checked]
  by_cases hnil : templates = []
  · rw [if_pos hnil]
    simp [hnil]
  rw [if_neg hnil]
  refine ⟨fun _ => ⟨_, templates.length - failures results, failures results, ?_, ?_, rfl⟩, ?_⟩
  · omega
  · omega
  · rw [failures_of_yields h]
    simp [hnil, List.countP_eq_zero]

/-- Every check is one in this sense. -/
theorem isCheck_runCheck (hd : d.Proper) (s : Surface) (g : Generator) (encoding : Option TextEncoding)
    (paths : List Path) : IsCheck s d g encoding paths
      (Discovery.templates d s.workingDirectory paths) (runCheck s d g paths encoding) := by
  rw [runCheck]
  have hbatch := g.yields_batchFrom encoding 0 (Discovery.templates d s.workingDirectory paths)
  obtain ⟨hsummary, hexit⟩ := checked_of_yields d g.files hbatch
  refine ⟨Discovery.finds_templates hd _ paths, fun counter _ => Builds.finished_of_turns counter _,
    fun counter schedule h => ?_, hsummary, hexit⟩
  obtain ⟨results, hresults, hyields⟩ := h.results
  refine ⟨results, hresults, hyields.imp ?_, checked_of_agree (hyields.agree hbatch) ..⟩
  rintro template _ ⟨serial, rfl⟩
  exact g.program_sameButName template encoding serial 0

/-- The exit code depends on the number of templates and on the results. -/
theorem exitCode_of_length {templates' : List Path} (h : templates.length = templates'.length)
    (results : List (Logged Program)) : (checked d files templates results).exitCode
      = (checked d files templates' results).exitCode := by
  have hnil : templates = [] ↔ templates' = [] := by
    rw [← List.length_eq_zero_iff, ← List.length_eq_zero_iff, h]
  rw [checked, checked]
  by_cases htemplates : templates = []
  · rw [if_pos htemplates, if_pos (hnil.1 htemplates)]
  · rw [if_neg htemplates, if_neg (hnil.not.1 htemplates)]

/-- **What a check comes to does not depend on how its templates are named or in which order they are
built**, as long as of two spellings of a path neither leads anywhere or both do. -/
theorem runCheck_unaffected {paths paths' : List Path} (hd : d.Proper)
    (hpaths : ∀ p ∈ paths, ∃ p' ∈ paths', Path.Same p p')
    (hpaths' : ∀ p' ∈ paths', ∃ p ∈ paths, Path.Same p p')
    (hexists : ∀ p ∈ paths, ∀ p' ∈ paths', Path.Same p p' →
      d.exists? s.workingDirectory p = d.exists? s.workingDirectory p')
    (g : Generator) (encoding : Option TextEncoding) :
    ∃ found found', IsCheck s d g encoding paths found (runCheck s d g paths encoding) ∧
      IsCheck s d g encoding paths' found' (runCheck s d g paths' encoding) ∧
      Discovery.templates d s.workingDirectory paths = found ∧
      Discovery.templates d s.workingDirectory paths' = found' ∧
      List.Forall₂ Path.Same found found' ∧ g.batch encoding found = g.batch encoding found' ∧
      (runCheck s d g paths encoding).exitCode = (runCheck s d g paths' encoding).exitCode := by
  have hcheck := isCheck_runCheck hd s g encoding paths
  have hcheck' := isCheck_runCheck hd s g encoding paths'
  have hsame := hcheck.finds.same hcheck'.finds hd hpaths hpaths' hexists
  have hne : ∀ t ∈ Discovery.templates d s.workingDirectory paths, t.text ≠ [] := fun t ht =>
    have ⟨_, _, hnames⟩ := (hcheck.finds.exactly t).1 ⟨t, ht, .refl t⟩
    hnames.text_ne_nil hd
  have hbatch := g.batchFrom_of_same encoding hsame hne 0
  refine ⟨_, _, hcheck, hcheck', rfl, rfl, hsame, hbatch, ?_⟩
  rw [runCheck, runCheck, Generator.batch, hbatch]
  exact exitCode_of_length hsame.length_eq _

end

/-- Templates in a directory `a` and further down, with a fixture among them. -/
def nestedTemplates : Disk :=
  .ofPlaces (["a/x.dswift", "a/b/y.dswift", "a/b/z.test.dswift"].map fun p => p.toList.splitOn '/') []

/-- A directory and a template in it. -/
def overlappingPaths : List Path := ["a", "a/x.dswift"].map .ofString

/-- The same in another order, in other spellings, and with one of them repeated. -/
def respelledPaths : List Path := ["a/./x.dswift", "a//", "a"].map .ofString

/-- Two ways to name the same templates. -/
theorem runCheck_unaffected_respelled : nestedTemplates.Proper ∧
    (∀ p ∈ overlappingPaths, ∃ p' ∈ respelledPaths, Path.Same p p') ∧
    (∀ p' ∈ respelledPaths, ∃ p ∈ overlappingPaths, Path.Same p p') ∧
    (∀ p ∈ overlappingPaths, ∀ p' ∈ respelledPaths, Path.Same p p' →
      nestedTemplates.exists? [] p = nestedTemplates.exists? [] p') ∧
    ∃ found found',
      IsCheck { workingDirectory := [] } nestedTemplates (nestedTemplates.generator [] .current true) none
        overlappingPaths found (runCheck { workingDirectory := [] } nestedTemplates
          (nestedTemplates.generator [] .current true) overlappingPaths none) ∧
      IsCheck { workingDirectory := [] } nestedTemplates (nestedTemplates.generator [] .current true) none
        respelledPaths found' (runCheck { workingDirectory := [] } nestedTemplates
          (nestedTemplates.generator [] .current true) respelledPaths none) ∧
      Discovery.templates nestedTemplates [] overlappingPaths = found ∧
      Discovery.templates nestedTemplates [] respelledPaths = found' ∧
      List.Forall₂ Path.Same found found' ∧
      (nestedTemplates.generator [] .current true).batch none found
        = (nestedTemplates.generator [] .current true).batch none found' ∧
      (runCheck { workingDirectory := [] } nestedTemplates (nestedTemplates.generator [] .current true)
          overlappingPaths none).exitCode
        = (runCheck { workingDirectory := [] } nestedTemplates (nestedTemplates.generator [] .current true)
          respelledPaths none).exitCode := by
  have hd : nestedTemplates.Proper := Disk.proper_ofPlaces (by decide +kernel) _
  have hpaths : ∀ p ∈ overlappingPaths, ∃ p' ∈ respelledPaths, Path.Same p p' := by decide +kernel
  have hpaths' : ∀ p' ∈ respelledPaths, ∃ p ∈ overlappingPaths, Path.Same p p' := by
    decide +kernel
  have hexists : ∀ p ∈ overlappingPaths, ∀ p' ∈ respelledPaths, Path.Same p p' →
      nestedTemplates.exists? [] p = nestedTemplates.exists? [] p' := by
    decide +kernel
  exact ⟨hd, hpaths, hpaths', hexists,
    runCheck_unaffected (s := { workingDirectory := [] }) hd hpaths hpaths' hexists _ none⟩

/-- A slash behind the name of a file makes it lead nowhere: of two spellings of one path, only one may
find a template. -/
theorem templates_of_slash_behind_file : nestedTemplates.Proper ∧
    Path.Same (.ofString "a/x.dswift") (.ofString "a/x.dswift/") ∧
    ¬ List.Forall₂ Path.Same (Discovery.templates nestedTemplates [] [.ofString "a/x.dswift"])
      (Discovery.templates nestedTemplates [] [.ofString "a/x.dswift/"]) := by
  have hfile : Discovery.templates nestedTemplates [] [.ofString "a/x.dswift"]
      = [.ofString "a/x.dswift"] := by decide +kernel
  have hslash : Discovery.templates nestedTemplates [] [.ofString "a/x.dswift/"] = [] := by
    decide +kernel
  refine ⟨Disk.proper_ofPlaces (by decide +kernel) _, by decide +kernel, ?_⟩
  rw [hfile, hslash]
  exact nofun

end CommandLine
end Templating
