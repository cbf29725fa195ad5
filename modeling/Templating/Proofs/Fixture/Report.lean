import Mathlib.Data.List.Forall2
import Templating.CommandLine.Run

/-!
# What a report says, and how much of it is printed

A report is made of styled pieces, and it is printed piece by piece while the fixtures are run.  Here it
is one text: `Report.Accounts` says which, character by character and without the pieces, so that the
definitions that put the pieces together can be held against it.

The text has three parts, of which the second may be missing:

* for every category its name, and below it a line on each of its fixtures;
* under the heading `failures:` an entry for each fixture that fails, in the order in which they were run;
* a line with two numbers, of those that pass and of those that fail.

## What is here

* `Report.Accounts` relates a run, the numbers, the fixtures that fail and the text.
* `Report.accounts_ofRun`: this is what `Report.ofRun` says of every run.
* `Report.printRun_eq`: printing piece by piece, while the fixtures are run, is running them and then
  printing the whole report.  `Printer.output_print` says how much of it is printed.

What fails in the middle of a report is not the run but whoever takes the report.  So the text is the
same with and without a limit, and the limit cuts it off; nothing has to be proved about the pieces that
are being printed when that happens.
-/

set_option autoImplicit false

namespace Templating

/-! ## The text of a report

Colours are the only thing about a report that depends on the terminal.  A coloured word stands between
the marks that select its colour and the one that takes it back. -/

namespace Report

/-- A word in the colour with some number, if there are colours. -/
def tinted (color : Bool) (number : String) (word : Text) : Text :=
  if color then "\x1b[0m\x1b[".toList ++ number.toList ++ ['m'] ++ word ++ "\x1b[0m".toList else word

/-- The line on a fixture below the name of its category. -/
def outcomeText (color : Bool) (r : FixtureResult) : Text :=
  "  ".toList ++ (if r.passed then tinted color "32" "PASS".toList else tinted color "31" "FAIL".toList)
    ++ "  ".toList ++ r.label ++ ['\n']

/-- The name of a category behind an empty line, and a line on each of its fixtures. -/
def categoryText (color : Bool) (c : CategoryResult) : Text :=
  ['\n'] ++ tinted color "1" (Category.label c.name) ++ ['\n'] ++ c.results.flatMap (outcomeText color)

/-- The entry on a fixture that fails: behind an empty line a line with its path, and then why it fails. -/
def IsEntry (r : FixtureResult) (entry : Text) : Prop :=
  ∃ m, r.mismatch = some m ∧
    entry = ['\n'] ++ ("  --- ".toList ++ r.path.text ++ " ---".toList ++ ['\n']) ++
      (reasonLines m.reason.toList).flatMap fun l => "  ".toList ++ l ++ ['\n']

/-- All entries, below a heading; without entries there is no heading. -/
def failuresText (entries : List Text) : Text :=
  if entries = [] then [] else ['\n'] ++ ("failures:".toList ++ ['\n']) ++ entries.flatten

/-- The numbers at the end. -/
def summaryText (color : Bool) (passed failed : Nat) : Text :=
  ['\n'] ++ "test result: ".toList ++
    if failed = 0 then
      tinted color "32" "ok".toList ++ (s!". {passed} passed, 0 failed".toList ++ ['\n'])
    else
      tinted color "31" "FAILED".toList ++
        (s!". {passed} passed, {failed} failed (of {passed + failed})".toList ++ ['\n'])

/-- A text accounts for a run of which `passed` fixtures pass and those in `failed` fail. -/
structure Accounts (color : Bool) (run : List CategoryResult) (passed : Nat)
    (failed : List FixtureResult) (report : Text) : Prop where
  /-- There is one entry for each fixture that fails, and no other. -/
  text : ∃ entries, List.Forall₂ IsEntry failed entries ∧
    report = run.flatMap (categoryText color) ++ failuresText entries ++
      summaryText color passed failed.length
  passes : passed = (resultsOf run).countP (·.passed)
  total : passed + failed.length = (resultsOf run).length
  fails : ∀ r, r ∈ failed ↔ r ∈ resultsOf run ∧ r.passed = false
  /-- The fixtures that fail are told of in the order in which they were run. -/
  ordered : failed.Sublist (resultsOf run)

/-! ## Rendering

The pieces of a report are texts in styles, and `Report.render` writes them one behind the other.  So
what a part of a report is rendered to can be read off its pieces, one lemma for each part. -/

section

variable (color : Bool)

theorem render_nil : Report.render color [] = [] := rfl

theorem render_cons (s : Styled) (r : Report) :
    Report.render color (s :: r) = renderStyled color s ++ r.render color := rfl

theorem render_append (r r' : Report) :
    (r ++ r').render color = r.render color ++ r'.render color := List.flatMap_append

theorem render_flatMap {α : Type} (f : α → Report) (l : List α) :
    Report.render color (l.flatMap f) = l.flatMap fun a => (f a).render color := List.flatMap_assoc

theorem render_map {α : Type} (f : α → Styled) (l : List α) :
    Report.render color (l.map f) = l.flatMap fun a => renderStyled color (f a) :=
  List.flatMap_map ..

theorem renderStyled_plain (t : Text) : renderStyled color (plain t) = t := rfl

theorem renderStyled_line (t : Text) : renderStyled color (line t) = t ++ ['\n'] := rfl

theorem renderStyled_green (t : Text) : renderStyled color ⟨.green, t⟩ = tinted color "32" t := by
  cases color <;> rfl

theorem renderStyled_red (t : Text) : renderStyled color ⟨.red, t⟩ = tinted color "31" t := by
  cases color <;> rfl

theorem renderStyled_bold (t : Text) : renderStyled color ⟨.bold, t⟩ = tinted color "1" t := by
  cases color <;> rfl

theorem render_outcome (r : FixtureResult) : (outcome r).render color = outcomeText color r := by
  rw [outcome, outcomeText]
  split <;> simp only [render_cons, render_nil, renderStyled_plain, renderStyled_green,
    renderStyled_red, renderStyled_line, List.append_assoc, List.append_nil]

theorem render_category (c : CategoryResult) :
    (category true c).render color = categoryText color c := by
  rw [category, if_pos rfl, render_append, render_flatMap, categoryText]
  simp only [heading, render_outcome, render_cons, render_nil, renderStyled_line, renderStyled_bold,
    List.append_assoc, List.append_nil, List.nil_append]

theorem render_summary (passed failed : Nat) :
    (summary passed failed).render color = summaryText color passed failed := by
  rw [summary, render_append, summaryText]
  split <;> simp only [render_cons, render_nil, renderStyled_plain, renderStyled_line,
    renderStyled_green, renderStyled_red, List.append_nil, List.nil_append]

theorem isEntry_render_failure {r : FixtureResult} (h : r.passed = false) :
    IsEntry r ((failure r).render color) := by
  obtain ⟨m, hm⟩ : ∃ m, r.mismatch = some m := by
    simpa [FixtureResult.passed, Option.isSome_iff_exists] using h
  refine ⟨m, hm, ?_⟩
  rw [failure, hm]
  dsimp only
  rw [render_append, render_map]
  simp only [render_cons, render_nil, renderStyled_line, List.append_assoc, List.append_nil,
    List.nil_append]

theorem render_failures (failed : List FixtureResult) :
    (failures failed).render color = failuresText (failed.map fun r => (failure r).render color) := by
  rw [failures, failuresText]
  by_cases h : failed = []
  · rw [if_pos h, if_pos (List.map_eq_nil_iff.2 h), render_nil]
  · rw [if_neg h, if_neg (List.map_eq_nil_iff.not.2 h), render_append, render_flatMap,
      List.flatMap_def]
    rfl

end

/-! ## Counting

The two numbers and the list of failures are three filters of one list of results. -/

theorem mem_failedOf {run : List CategoryResult} {r : FixtureResult} :
    r ∈ failedOf run ↔ r ∈ resultsOf run ∧ r.passed = false := by
  rw [failedOf, List.mem_filter, Bool.not_eq_true']

theorem length_passedOf_add_failedOf (run : List CategoryResult) :
    (passedOf run).length + (failedOf run).length = (resultsOf run).length :=
  List.length_eq_length_filter_add _ |>.symm

/-- **A report accounts for its run**, whatever was run and whatever came of it. -/
theorem accounts_ofRun (color : Bool) (run : List CategoryResult) :
    Accounts color run (passedOf run).length (failedOf run) ((ofRun true run).render color) where
  text := by
    refine ⟨(failedOf run).map fun r => (failure r).render color, ?_, ?_⟩
    · exact List.forall₂_map_right_iff.2 (List.forall₂_same.2 fun r hr =>
        isEntry_render_failure color (mem_failedOf.1 hr).2)
    · rw [ofRun, render_append, render_append, render_flatMap, render_failures, render_summary]
      simp only [render_category]
  passes := by rw [passedOf, List.countP_eq_length_filter]
  total := length_passedOf_add_failedOf run
  fails _ := mem_failedOf
  ordered := List.filter_sublist

end Report

/-! ## Printing

A printer is a function of what has been printed, and so two printers are the same if they come to the
same behind every text.  The law that matters is `Printer.print_append`: a limit does not care where one
piece ends and the next one begins. -/

namespace Printer

variable {α β : Type} {limit : Option Limit}

theorem bind_apply (p : Printer α) (f : α → Printer β) (printed : Text) :
    (p >>= f) printed =
      match p printed with
      | (.ok a, printed) => f a printed
      | (.error e, printed) => (.error e, printed) := by
  show (match p printed with | (a, printed) => ExceptT.bindCont f a printed) = _
  rcases p printed with ⟨_ | _, _⟩ <;> rfl

theorem print_none (t printed : Text) : print none t printed = (.ok (), printed ++ t) := rfl

theorem print_some (limit : Limit) (t printed : Text) :
    print (some limit) t printed =
      (if limit.length - printed.length < t.length then .error limit.cause else .ok (),
        printed ++ t.take (limit.length - printed.length)) := by
  show (if limit.length - printed.length < t.length then throw limit.cause else pure () : Printer Unit)
    (printed ++ t.take (limit.length - printed.length)) = _
  split <;> rfl

theorem print_nil : print limit [] = pure () := by
  funext printed
  cases limit with
  | none =>
    rw [print_none, List.append_nil]
    rfl
  | some limit =>
    rw [print_some, List.take_nil, List.append_nil, List.length_nil, if_neg (Nat.not_lt_zero _)]
    rfl

/-- What is printed piece by piece might as well be printed in one. -/
theorem print_append (t t' : Text) :
    print limit (t ++ t') = (do print limit t; print limit t') := by
  funext printed
  rw [bind_apply]
  cases limit with
  | none =>
    rw [print_none, print_none, ← List.append_assoc]
    rfl
  | some limit =>
    rw [print_some, print_some, List.length_append, List.take_append]
    by_cases hfront : limit.length - printed.length < t.length
    · -- The limit is within `t`: nothing of `t'` is printed.
      rw [if_pos (Nat.lt_add_right _ hfront), if_pos hfront, Nat.sub_eq_zero_of_le (Nat.le_of_lt hfront),
        List.take_zero, List.append_nil]
    · -- All of `t` is printed, and what is left of the limit is left for `t'`.
      rw [if_neg hfront, List.take_of_length_le (Nat.not_lt.1 hfront)]
      dsimp only
      rw [print_some, List.length_append, Nat.sub_add_eq, List.append_assoc]
      congr 1
      exact if_congr (by omega) rfl rfl

/-- What comes of printing a text at the beginning: all of it, or what the limit leaves of it. -/
theorem output_print (t : Text) (a : α) :
    (do print limit t; return a : Printer α).output =
      match limit with
      | none => (.ok a, t)
      | some limit =>
        if limit.length < t.length then (.error limit.cause, t.take limit.length) else (.ok a, t) := by
  show (print limit t >>= fun _ => pure a) [] = _
  rw [bind_apply]
  cases limit with
  | none => rfl
  | some limit =>
    rw [print_some, List.length_nil, Nat.sub_zero, List.nil_append]
    by_cases h : limit.length < t.length
    · rw [if_pos h]
      exact (if_pos h).symm
    · rw [if_neg h, List.take_of_length_le (Nat.not_lt.1 h)]
      exact (if_neg h).symm

end Printer

/-! ## Running and printing

The recursion of the printing functions is that of the lists of categories and files, and so are the
inductions.  All they use of printing is that it goes well with appending. -/

namespace Report

variable {out : Report → Printer Unit} (hnil : out [] = pure ())
  (happend : ∀ r r', out (r ++ r') = do out r; out r')

include hnil happend

theorem printFixtures_eq (test : Path → FixtureResult) (files : List Path) :
    printFixtures out test files =
      (do out ((files.map test).flatMap outcome); return files.map test) := by
  induction files with
  | nil => simp [printFixtures, hnil]
  | cons file files ih => simp [printFixtures, ih, happend]

theorem printCategories_eq (headings : Bool) (test : Path → FixtureResult) (categories : List Category) :
    let run := categories.map fun c => (⟨c.name, c.files.map test⟩ : CategoryResult)
    printCategories out headings test categories =
      (do out (run.flatMap (category headings)); return run) := by
  induction categories with
  | nil => simp [printCategories, hnil]
  | cons c categories ih =>
    cases headings <;> simp [printCategories, ih, happend, printFixtures_eq hnil happend, category]

/-- Reporting while the fixtures are run is the same as running them and reporting on that. -/
theorem printRun_eq (headings : Bool) (test : Path → FixtureResult) (categories : List Category) :
    let run := categories.map fun c => (⟨c.name, c.files.map test⟩ : CategoryResult)
    printRun out headings test categories = (do out (ofRun headings run); return run) := by
  simp [printRun, printCategories_eq hnil happend, ofRun, happend]

end Report
end Templating
