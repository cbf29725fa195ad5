import Templating.Fixture.Category

/-!
# Reports on fixtures

A report tells of each fixture whether it passes, then why others fail, and then how many there are
of either.

## What is here

* `Styled` is a text in a style; `Report` is a row of them, which `Report.render` writes down.
* `Category.run` runs the fixtures of some categories; `Report.ofRun` reports on that.
* `Printer` is for what is printed bit by bit.  `Report.printRun` prints the report on a run while the
  fixtures are run, and a run whose report cannot be printed any further ends there.
-/

set_option autoImplicit false

namespace Templating

/-! ## Styled texts -/

/-- How a text is shown. -/
inductive Style where
  | plain
  | green
  | red
  | bold
  deriving DecidableEq, Repr

/-- The number that a terminal knows a style by. -/
def Style.code? : Style → Option Nat
  | plain => none
  | green => some 32
  | red => some 31
  | bold => some 1

/-- A text in one style. -/
structure Styled where
  style : Style
  text : Text
  deriving DecidableEq, Repr

/-- What is shown. -/
abbrev Report := List Styled

namespace Report

/-- The characters that make a terminal take another style. -/
def select (code : Nat) : Text := ['\x1b', '['] ++ Nat.toDigits 10 code ++ ['m']

/-- A text as it is sent to a terminal, with its style if `color` holds. -/
def renderStyled (color : Bool) (s : Styled) : Text :=
  match s.style.code? with
  | some code => if color then select 0 ++ select code ++ s.text ++ select 0 else s.text
  | none => s.text

/-- A report as it is sent to a terminal. -/
def render (color : Bool) (r : Report) : Text := r.flatMap (renderStyled color)

/-- A text in no style. -/
def plain (t : Text) : Styled := ⟨.plain, t⟩

/-- A line in no style. -/
def line (t : Text) : Styled := plain (t ++ ['\n'])

end Report

/-! ## Runs -/

/-- The results of one category. -/
structure CategoryResult where
  name : Text
  results : List FixtureResult
  deriving DecidableEq, Repr

/-- Runs the fixtures of a category. -/
def Category.run (c : Category) (d : Disk) (cwd : Place) (running : Version) : CategoryResult :=
  ⟨c.name, c.files.map (Fixture.run d cwd running)⟩

namespace Report

/-- The name of a category above its results. -/
def heading (name : Text) : Report :=
  [line [], ⟨.bold, Category.label name⟩, line []]

/-- The line on one fixture. -/
def outcome (r : FixtureResult) : Report :=
  [plain "  ".toList, if r.passed then ⟨.green, "PASS".toList⟩ else ⟨.red, "FAIL".toList⟩,
    line ("  ".toList ++ r.label)]

/-- The results of a category, under its name if `headings` holds. -/
def category (headings : Bool) (c : CategoryResult) : Report :=
  (if headings then heading c.name else []) ++ c.results.flatMap outcome

/-- The lines of a reason; a line break at its end opens no other line. -/
def reasonLines (reason : Text) : List Text :=
  let lines := reason.lines
  let ended := lines.dropLast.map Text.chomp
  match lines.getLast? with
  | some (c :: t) => ended ++ [c :: t]
  | _ => ended

/-- Why a fixture fails. -/
def failure (r : FixtureResult) : Report :=
  match r.mismatch with
  | none => []
  | some m =>
    [line [], line ("  --- ".toList ++ r.path.text ++ " ---".toList)]
      ++ (reasonLines m.reason.toList).map fun l => line ("  ".toList ++ l)

/-- Why fixtures fail, if any does. -/
def failures (failed : List FixtureResult) : Report :=
  if failed = [] then [] else [line [], line "failures:".toList] ++ failed.flatMap failure

/-- The numbers of fixtures that pass and that fail. -/
def summary (passed failed : Nat) : Report :=
  [line [], plain "test result: ".toList] ++
    if failed = 0 then
      [⟨.green, "ok".toList⟩, line s!". {passed} passed, 0 failed".toList]
    else
      [⟨.red, "FAILED".toList⟩,
        line s!". {passed} passed, {failed} failed (of {passed + failed})".toList]

/-- The results of all categories together. -/
def resultsOf (run : List CategoryResult) : List FixtureResult := run.flatMap CategoryResult.results

/-- The fixtures of a run that fail. -/
def failedOf (run : List CategoryResult) : List FixtureResult :=
  (resultsOf run).filter fun r => !r.passed

/-- The fixtures of a run that pass. -/
def passedOf (run : List CategoryResult) : List FixtureResult := (resultsOf run).filter (·.passed)

/-- The report on a run; categories are named if `headings` holds. -/
def ofRun (headings : Bool) (run : List CategoryResult) : Report :=
  run.flatMap (category headings) ++ failures (failedOf run)
    ++ summary (passedOf run).length (failedOf run).length

end Report

/-! ## Printing

Whoever reads a report may stop listening, and what it is written to may be full.  Then a part of it has
been printed and no more is, whatever the rest of it would have been. -/

/-- How many characters can be printed, and why no more can. -/
structure Printer.Limit where
  length : Nat
  cause : String
  deriving DecidableEq, Repr

/-- What prints, with the text that has been printed so far.  It comes to an error when no more can be
printed. -/
abbrev Printer := ExceptT String (StateM Text)

namespace Printer

/-- Prints a text, or as much of it as can be printed. -/
def print (limit : Option Limit) (t : Text) : Printer Unit := do
  let printed ← get
  match limit with
  | none => set (printed ++ t)
  | some limit =>
    let left := limit.length - printed.length
    set (printed ++ t.take left)
    if left < t.length then throw limit.cause

/-- What a printer comes to, and all that it has printed. -/
def output {α : Type} (p : Printer α) : Except String α × Text := (StateT.run (ExceptT.run p) []).run

end Printer

namespace Report

/-- Runs the fixtures in some files; the line on a fixture is printed before the next one is run. -/
def printFixtures (print : Report → Printer Unit) (test : Path → FixtureResult) :
    List Path → Printer (List FixtureResult)
  | [] => return []
  | file :: files => do
    let r := test file
    print (outcome r)
    return r :: (← printFixtures print test files)

/-- Runs the fixtures of some categories; the name of a category is printed before any of them is run. -/
def printCategories (print : Report → Printer Unit) (headings : Bool) (test : Path → FixtureResult) :
    List Category → Printer (List CategoryResult)
  | [] => return []
  | c :: categories => do
    if headings then print (heading c.name)
    let results ← printFixtures print test c.files
    return ⟨c.name, results⟩ :: (← printCategories print headings test categories)

/-- Runs the fixtures of some categories and prints the report on that. -/
def printRun (print : Report → Printer Unit) (headings : Bool) (test : Path → FixtureResult)
    (categories : List Category) : Printer (List CategoryResult) := do
  let run ← printCategories print headings test categories
  print (failures (failedOf run))
  print (summary (passedOf run).length (failedOf run).length)
  return run

end Report
end Templating
