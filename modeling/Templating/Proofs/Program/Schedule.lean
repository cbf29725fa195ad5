import Mathlib.Data.List.Forall2
import Templating.Generator
import Templating.Proofs.Text.Hex

/-!
# Builds side by side

The programs of many templates are built side by side.  What the builds have in common is the files,
which stay as they are, and a counter that tells the classes of their programs apart: a build takes the
next number from it once its template is expanded.  So the numbers depend on the order in which the
builds get on, and nothing else does.

## What is here

* `Program.SameButName` compares programs that may differ by the names of their classes, and
  `Logged.SameButName` what builds come to.
* `Stage` is how far a build is, `Builds` a row of them with the counter; `Builds.run` lets them get on in
  any order.
* `Builds.Sound.run` says what holds along every run, and `Builds.Finished.results` what is left in the
  end: every build comes to what it comes to by itself.  `Builds.finished_of_turns`: there is an end.
-/

set_option autoImplicit false

namespace Templating

/-! ## Up to the names of classes

A number is all that a build takes from the others, and it goes into the name of a class.  That name is
in the source of the program, so two sources are not the same text; but they are one plan rendered under
two names. -/

/-- Two programs differ by the names of their classes at most: their sources are those of one plan. -/
structure Program.SameButName (p q : Program) : Prop where
  template : p.template = q.template
  encoding : p.encoding = q.encoding
  plan : p.plan = q.plan
  source : ∃ templateName,
    p.source = Swift.render ⟨p.className, templateName, p.encoding⟩ p.plan ∧
    q.source = Swift.render ⟨q.className, templateName, q.encoding⟩ q.plan

/-- Two builds come to the same, up to the names of classes: to programs, or to one error. -/
inductive Program.Agree : Except BuildError Program → Except BuildError Program → Prop
  | ok {p q : Program} (h : p.SameButName q) : Agree (.ok p) (.ok q)
  | error (e : BuildError) : Agree (.error e) (.error e)

/-- Two builds come to the same, up to the names of classes, and read the same files. -/
structure Logged.SameButName (r r' : Logged Program) : Prop where
  reads : r.reads = r'.reads
  result : Program.Agree r.result r'.result

/-- The name of the class is only put into the source. -/
theorem Program.emit_agree {c c' : EmitContext} (hcontext : c' = { c with className := c'.className })
    (d : Document) (failure : Option BuildError) (blocks : List Block) :
    Agree (emit c d failure blocks) (emit c' d failure blocks) := by
  rw [emit, emit]
  cases Plan.ofBlocks d failure blocks with
  | error e => exact .error e
  | ok plan =>
    rw [hcontext]
    exact .ok ⟨rfl, rfl, rfl, c.templateName, rfl, rfl⟩

namespace Generator

variable (g : Generator) (template : Path) (encoding : Option TextEncoding)

/-- The number that a build takes shows in the name of the class only. -/
theorem program_sameButName (m n : Nat) :
    (g.program m template encoding).SameButName (g.program n template encoding) where
  reads := rfl
  result := by
    show Program.Agree ((g.expand template encoding).result.bind _)
      ((g.expand template encoding).result.bind _)
    cases (g.expand template encoding).result with
    | error e => exact .error e
    | ok t => exact Program.emit_agree rfl _ _ _

/-- The builds of some templates come to these results, whatever numbers they take. -/
abbrev Yields (g : Generator) (encoding : Option TextEncoding) (templates : List Path)
    (results : List (Logged Program)) : Prop :=
  List.Forall₂ (fun template r => ∃ serial, r = g.program serial template encoding) templates results

/-- Results of the same builds agree. -/
theorem Yields.agree {g : Generator} {encoding : Option TextEncoding} {templates : List Path}
    {results results' : List (Logged Program)} (h : g.Yields encoding templates results)
    (h' : g.Yields encoding templates results') : List.Forall₂ Logged.SameButName results results' := by
  induction h generalizing results' with
  | nil =>
    cases h'
    exact .nil
  | cons hr _ ih =>
    cases h' with
    | cons hr' hrest =>
      obtain ⟨m, rfl⟩ := hr
      obtain ⟨n, rfl⟩ := hr'
      exact .cons (g.program_sameButName _ encoding m n) (ih hrest)

/-- What a batch comes to is what its builds come to by themselves. -/
theorem yields_batchFrom (serial : Nat) (templates : List Path) :
    g.Yields encoding templates (g.batchFrom encoding serial templates) := by
  induction templates generalizing serial with
  | nil => exact .nil
  | cons template templates ih => exact .cons ⟨serial, rfl⟩ (ih (serial + 1))

end Generator

/-! ## Names of classes

The name of a class is a hash in hexadecimal digits.  Two names are the same exactly if the hashes are, so
nothing is lost by writing the hash down, and whether classes can be told apart is up to the hash. -/

theorem Generator.className_eq_iff {g : Generator} {p q : Path} {m n : Nat} :
    g.className p m = g.className q n ↔ g.classHash.hash p m = g.classHash.hash q n := by
  unfold Generator.className
  rw [List.append_right_inj, Text.hexPadded_inj, UInt64.toNat_inj]

/-- Different numbers take a hash to different ones. -/
theorem ClassHash.mix_inj {h : UInt64} {m n : Nat} :
    mix h m = mix h n ↔ m.toUInt64 = n.toUInt64 := by
  refine ⟨fun heq => ?_, fun heq => by rw [mix, mix, heq]⟩
  -- The factor is odd, and so it has an inverse.
  have hinverse (a : UInt64) : a * 1099511628211 * 14886173955864302971 = a := by
    rw [UInt64.mul_assoc, show (1099511628211 * 14886173955864302971 : UInt64) = 1 by decide,
      UInt64.mul_one]
  have hxor : h ^^^ m.toUInt64 = h ^^^ n.toUInt64 := by
    rw [← hinverse (h ^^^ m.toUInt64), ← hinverse (h ^^^ n.toUInt64)]
    exact congrArg (· * 14886173955864302971) heq
  exact UInt64.xor_right_inj h |>.1 hxor

/-- By the standard hash, builds of one template have the same name only if they have the same number. -/
theorem ClassHash.hash_standard_inj {p : Path} {m n : Nat} :
    standard.hash p m = standard.hash p n ↔ m.toUInt64 = n.toUInt64 := mix_inj

/-! ## Stages

A build is cut into three steps, at the points where another build can get in between in a way that
matters: before it takes its number and after.  What it keeps from one step to the next is what it
needs, so no step looks at another build. -/

/-- How far a build is. -/
inductive Stage where
  | waiting
  /-- The template is expanded. -/
  | expanded (t : ExpandedTemplate) (reads : List Path)
  /-- The program has its number. -/
  | numbered (serial : Nat) (t : ExpandedTemplate) (reads : List Path)
  | finished (r : Logged Program)

namespace Stage

/-- A build gets on by one step.  `counter` is the number to be taken next; in front of the stage that
the build reaches stands the number to be taken after that. -/
def advance (g : Generator) (encoding : Option TextEncoding) (template : Path) (counter : Nat) :
    Stage → Nat × Stage
  | waiting =>
    match g.expand template encoding with
    | ⟨.ok t, reads⟩ => (counter, expanded t reads)
    | ⟨.error e, reads⟩ => (counter, finished ⟨.error e, reads⟩)
  | expanded t reads => (counter + 1, numbered counter t reads)
  | numbered serial t reads =>
    (counter, finished ⟨Program.ofDocument (g.context serial t) t.document, reads⟩)
  | finished r => (counter, finished r)

/-- The steps that a build has before it at most. -/
def remaining : Stage → Nat
  | waiting => 3
  | expanded .. => 2
  | numbered .. => 1
  | finished _ => 0

/-- A build at this stage is on its way to what the build of its template comes to by itself. -/
def Sound (g : Generator) (encoding : Option TextEncoding) (template : Path) : Stage → Prop
  | waiting => True
  | expanded t reads => g.expand template encoding = ⟨.ok t, reads⟩
  | numbered _ t reads => g.expand template encoding = ⟨.ok t, reads⟩
  | finished r => ∃ serial, r = g.program serial template encoding

variable {g : Generator} {encoding : Option TextEncoding} {template : Path} {counter : Nat} {stage : Stage}

/-- A step goes the way of the build. -/
theorem Sound.advance (h : stage.Sound g encoding template) (counter : Nat) :
    (stage.advance g encoding template counter).2.Sound g encoding template := by
  cases stage with
  | waiting =>
    rw [Stage.advance]
    split
    · next t reads hexpand => exact hexpand
    · next e reads hexpand => exact ⟨0, by rw [Generator.program, hexpand]; rfl⟩
  | expanded t reads => exact h
  | numbered serial t reads =>
    have hexpand : g.expand template encoding = ⟨.ok t, reads⟩ := h
    exact ⟨serial, by rw [Generator.program, hexpand]; rfl⟩
  | finished r => exact h

/-- And there is one step less before it. -/
theorem remaining_advance (stage : Stage) :
    (stage.advance g encoding template counter).2.remaining ≤ stage.remaining - 1 := by
  cases stage with
  | waiting =>
    rw [advance]
    split <;> simp [remaining]
  | expanded t reads => simp [advance, remaining]
  | numbered serial t reads => simp [advance, remaining]
  | finished r => simp [advance, remaining]

/-- Without a step before it a build is finished. -/
theorem remaining_eq_zero_iff : stage.remaining = 0 ↔ ∃ r, stage = finished r := by
  cases stage <;> simp [remaining]

end Stage

/-! ## Runs

A schedule may name any build at any time, also one that is finished or that is not there.  Nothing is
assumed of it: that each build is on its way holds after every turn. -/

/-- Builds side by side, each with its template, and the next number to be taken. -/
structure Builds where
  counter : Nat
  stages : List (Path × Stage)

namespace Builds

/-- The builds of some templates before any of them gets on. -/
def start (counter : Nat) (templates : List Path) : Builds :=
  ⟨counter, templates.map fun template => (template, .waiting)⟩

/-- One of the builds gets on by a step. -/
def turn (g : Generator) (encoding : Option TextEncoding) (b : Builds) (i : Nat) : Builds :=
  match b.stages[i]? with
  | none => b
  | some (template, stage) =>
    let next := stage.advance g encoding template b.counter
    ⟨next.1, b.stages.set i (template, next.2)⟩

/-- The builds get on in the order of a schedule, which says whose turn it is. -/
def run (g : Generator) (encoding : Option TextEncoding) (b : Builds) (schedule : List Nat) : Builds :=
  schedule.foldl (turn g encoding) b

/-- Every build is on its way to what it comes to by itself. -/
def Sound (g : Generator) (encoding : Option TextEncoding) (b : Builds) : Prop :=
  ∀ build ∈ b.stages, build.2.Sound g encoding build.1

variable {g : Generator} {encoding : Option TextEncoding} {b : Builds}

theorem Sound.turn (h : b.Sound g encoding) (i : Nat) : (b.turn g encoding i).Sound g encoding := by
  rw [Builds.turn]
  split
  · exact h
  · next template stage hstage =>
    intro build hbuild
    rcases List.mem_or_eq_of_mem_set hbuild with hmem | rfl
    · exact h build hmem
    · exact (h _ (List.mem_of_getElem? hstage)).advance _

/-- **Whatever the order**, no build keeps another from what it comes to by itself. -/
theorem Sound.run (h : b.Sound g encoding) (schedule : List Nat) :
    (b.run g encoding schedule).Sound g encoding :=
  List.foldlRecOn _ _ h fun _ hb i _ => hb.turn i

/-- A turn changes stages only. -/
theorem templates_turn (b : Builds) (i : Nat) :
    (b.turn g encoding i).stages.map Prod.fst = b.stages.map Prod.fst := by
  rw [turn]
  split
  · rfl
  · next template stage hstage =>
    obtain ⟨hi, hstage⟩ := List.getElem?_eq_some_iff.1 hstage
    have hi' : i < (b.stages.map Prod.fst).length := by rwa [List.length_map]
    have htemplate : template = (b.stages.map Prod.fst)[i] := by simp [hstage]
    rw [List.map_set]
    conv_lhs => rw [htemplate]
    exact List.set_getElem_self _

/-- So does a run. -/
theorem templates_run (b : Builds) (schedule : List Nat) :
    (b.run g encoding schedule).stages.map Prod.fst = b.stages.map Prod.fst := by
  induction schedule generalizing b with
  | nil => rfl
  | cons i schedule ih => exact (ih (b.turn g encoding i)).trans (templates_turn b i)

/-- The templates stay in their order. -/
theorem templates_run_start (counter : Nat) (templates : List Path) (schedule : List Nat) :
    ((start counter templates).run g encoding schedule).stages.map Prod.fst = templates := by
  rw [templates_run, start, List.map_map]
  exact List.map_id templates

/-- The steps that a build has before it at most. -/
def remaining (b : Builds) (i : Nat) : Nat := (b.stages[i]?.map fun build => build.2.remaining).getD 0

/-- The steps before a build that is there. -/
theorem remaining_eq {i : Nat} {build : Path × Stage} (h : b.stages[i]? = some build) :
    b.remaining i = build.2.remaining := by
  rw [remaining, h]
  rfl

/-- At the start there are three. -/
theorem remaining_start_le (counter : Nat) (templates : List Path) (i : Nat) :
    (start counter templates).remaining i ≤ 3 := by
  rw [remaining, start, List.getElem?_map]
  cases templates[i]? <;> simp [Stage.remaining]

/-- A turn takes one of them away, -/
theorem remaining_turn_self (b : Builds) (i : Nat) :
    (b.turn g encoding i).remaining i ≤ b.remaining i - 1 := by
  rw [turn]
  split
  · next hnone => simp [remaining, hnone]
  · next template stage hstage =>
    obtain ⟨hi, -⟩ := List.getElem?_eq_some_iff.1 hstage
    rw [remaining_eq hstage, remaining_eq (List.getElem?_set_self hi)]
    exact stage.remaining_advance

/-- and none of another build. -/
theorem remaining_turn_of_ne (b : Builds) {i j : Nat} (h : i ≠ j) :
    (b.turn g encoding i).remaining j = b.remaining j := by
  rw [turn]
  split
  · rfl
  · simp [remaining, List.getElem?_set_ne h]

/-- Every turn that a build gets takes it on by a step. -/
theorem remaining_run (b : Builds) (schedule : List Nat) (j : Nat) :
    (b.run g encoding schedule).remaining j ≤ b.remaining j - schedule.count j := by
  induction schedule generalizing b with
  | nil => exact Nat.le_refl _
  | cons i schedule ih =>
    have hrest : (b.run g encoding (i :: schedule)).remaining j
        ≤ (b.turn g encoding i).remaining j - schedule.count j := ih _
    by_cases hij : i = j
    · subst hij
      have hturn : (b.turn g encoding i).remaining i ≤ b.remaining i - 1 := remaining_turn_self b i
      rw [List.count_cons_self]
      omega
    · rw [remaining_turn_of_ne b hij] at hrest
      rwa [List.count_cons_of_ne hij]

/-! ## Finished runs

A schedule that is fair enough to give each build three turns comes to an end.  And wherever an end is
come to, however it was, the results are those of builds that were made alone. -/

/-- No build has a step before it. -/
def Finished (b : Builds) : Prop := ∀ build ∈ b.stages, build.2.remaining = 0

/-- Builds that get three turns each are finished, in whatever order they get them. -/
theorem finished_of_turns {schedule : List Nat} (counter : Nat) (templates : List Path)
    (hturns : ∀ i < templates.length, 3 ≤ schedule.count i) :
    ((start counter templates).run g encoding schedule).Finished := by
  intro build hbuild
  obtain ⟨i, hi, hbuild⟩ := List.getElem_of_mem hbuild
  have hlength : i < templates.length := by
    have htemplates : ((start counter templates).run g encoding schedule).stages.map Prod.fst = templates :=
      templates_run_start counter templates schedule
    rwa [← htemplates, List.length_map]
  have hrun : ((start counter templates).run g encoding schedule).remaining i
      ≤ (start counter templates).remaining i - schedule.count i := remaining_run _ schedule i
  have hstart := remaining_start_le counter templates i
  have hcount := hturns i hlength
  rw [remaining_eq (List.getElem?_eq_some_iff.2 ⟨hi, hbuild⟩)] at hrun
  omega

/-- Of stages that are all finished the results can be taken. -/
theorem exists_results {stages : List (Path × Stage)}
    (h : ∀ build ∈ stages, ∃ r, build.2 = .finished r ∧ ∃ serial, r = g.program serial build.1 encoding) :
    ∃ results : List (Logged Program), stages.map Prod.snd = results.map .finished ∧
      g.Yields encoding (stages.map Prod.fst) results := by
  induction stages with
  | nil => exact ⟨[], rfl, .nil⟩
  | cons build stages ih =>
    obtain ⟨r, hfinished, hr⟩ := h build (List.mem_cons_self ..)
    obtain ⟨results, hresults, hall⟩ := ih fun build hbuild => h build (List.mem_cons_of_mem _ hbuild)
    exact ⟨r :: results, by simp [hfinished, hresults], .cons hr hall⟩

/-- **In the end** the results are there, in the order of the templates: each is what the build of its
template comes to by itself. -/
theorem Finished.results {counter : Nat} {templates : List Path} {schedule : List Nat}
    (h : ((start counter templates).run g encoding schedule).Finished) :
    ∃ results : List (Logged Program),
      ((start counter templates).run g encoding schedule).stages.map Prod.snd = results.map .finished ∧
      g.Yields encoding templates results := by
  have hsound : (start counter templates).Sound g encoding := by
    intro build hbuild
    obtain ⟨template, -, rfl⟩ := List.mem_map.1 hbuild
    exact trivial
  have hresults := exists_results fun build hbuild => by
    have hstage := hsound.run schedule build hbuild
    obtain ⟨r, hr⟩ := Stage.remaining_eq_zero_iff.1 (h build hbuild)
    rw [hr] at hstage
    exact ⟨r, hr, hstage⟩
  rwa [templates_run_start] at hresults

end Builds

end Templating
