import Templating.Proofs.Disk.Tree
import Templating.Proofs.Fixture.Category
import Templating.Proofs.Fixture.Report

/-!
# Which fixtures are run

Of the fixtures below a directory, those in the groups that are asked for are run.  Requests may ask for
the same group several times over; that does not run a fixture twice.

## What is here

* `Disk.HasFixture` says where fixtures are, and `Disk.mem_fixtures_iff` that a search finds them.
* `Category.IsRun` says which fixtures are run, and in which order; `CommandLine.Outcome.Tells` what is
  reported on that.
* `CommandLine.runTest_selects`: this is what running the fixtures below a directory does.
-/

set_option autoImplicit false

namespace Templating

open Component

/-! ## Fixtures below a directory

Where fixtures are is a matter of the disk alone: a file with the right ending at the end of some
directories.  What a search gives are paths, which are spelled from that of the directory on. -/

namespace Disk

variable {d : Disk} {cwd place : Place} {p : Path} {permissions : Permissions} {dirs : List Text}
  {n : Text}

/-- At the end of some directories below a place there is a fixture called `n`. -/
def HasFixture (d : Disk) (place : Place) (dirs : List Text) (n : Text) : Prop :=
  Fixture.suffix <:+ n ∧
    ∃ contents permissions, d.node? (place ++ (dirs ++ [n])) = some (.file contents permissions)

/-- The directories on the way and the file have proper names. -/
theorem HasFixture.inner (h : d.HasFixture place dirs n) (hd : d.Proper) :
    ∀ m ∈ dirs ++ [n], Inner (.name m) := by
  obtain ⟨-, contents, permissions, hfile⟩ := h
  exact hd.inner_of_below hfile

/-- A search finds the fixtures, and nothing else. -/
theorem mem_fixtures_iff (hd : d.Proper) (hfind : d.find cwd p = .ok (place, .directory permissions))
    {q : Path} : q ∈ (d.filesUnder cwd p).filter Category.isFixture ↔
      ∃ dirs n, d.HasFixture place dirs n ∧ q = p.below (dirs ++ [n]) := by
  have hfixture {dirs : List Text} {n : Text} {node : Node}
      (hnode : d.node? (place ++ (dirs ++ [n])) = some node) :
      Category.isFixture (p.below (dirs ++ [n])) = true ↔ Fixture.suffix <:+ n := by
    rw [Category.isFixture, Path.fileName?_below (text_ne_nil_of_find hfind) (hd.inner_of_below hnode)]
    exact List.isSuffixOf_iff_suffix
  rw [List.mem_filter, hd.mem_filesUnder_directory_iff hfind]
  constructor
  · rintro ⟨⟨dirs, n, contents, permissions', hfile, rfl⟩, hsuffix⟩
    exact ⟨dirs, n, ⟨(hfixture hfile).1 hsuffix, contents, permissions', hfile⟩, rfl⟩
  · rintro ⟨dirs, n, ⟨hsuffix, contents, permissions', hfile⟩, rfl⟩
    exact ⟨⟨dirs, n, contents, permissions', hfile, rfl⟩, (hfixture hfile).2 hsuffix⟩

end Disk

/-! ## Running what was asked for

The fixtures are grouped by the directory that they are in, and a request covers a directory with all
that is below it.  A group is in the selection once, or not at all, so a fixture is run once if its
directory is covered by any of the requests.  A backslash in a name would be taken for a slash in the
name of the group; so it is excluded. -/

namespace Category

section Run

variable {d : Disk} {cwd place : Place} {running : Version} {p : Path} {permissions : Permissions}
  {requests : List Text}

/-- A character of a joined text is one of the segments', or the one between them. -/
theorem mem_or_eq_of_mem_intercalate {c x : Char} {segments : List Text}
    (h : c ∈ [x].intercalate segments) : c = x ∨ ∃ segment ∈ segments, c ∈ segment := by
  induction segments with
  | nil => cases h
  | cons segment segments ih =>
    cases segments with
    | nil => exact .inr ⟨segment, List.mem_singleton_self _, by simpa using h⟩
    | cons s segments =>
      rw [List.intercalate_cons_cons, List.append_assoc, List.mem_append] at h
      rcases h with h | h
      · exact .inr ⟨segment, List.mem_cons_self .., h⟩
      · rcases List.mem_cons.1 h with rfl | h
        · exact .inl rfl
        · exact (ih h).imp_right fun ⟨m, hm, hc⟩ => ⟨m, List.mem_cons_of_mem _ hm, hc⟩

/-- The name of a group are the directories on the way to its files. -/
theorem nameOf_below {dirs : List Text} {n : Text} (hp : p.text ≠ [])
    (hnames : ∀ m ∈ dirs ++ [n], Inner (.name m)) (hslash : ∀ m ∈ dirs, '\\' ∉ m) :
    nameOf p (p.below (dirs ++ [n])) = ['/'].intercalate dirs := by
  rw [nameOf, Path.relativeTo?_parent_below hp hnames]
  have hchar : ∀ c ∈ ['/'].intercalate dirs, (if c = '\\' then '/' else c) = c := by
    intro c hc
    rw [if_neg]
    rintro rfl
    obtain hc | ⟨m, hm, hc⟩ := mem_or_eq_of_mem_intercalate hc
    · cases hc
    · exact hslash m hm hc
  exact (List.map_congr_left hchar).trans (List.map_id _)

/-- What some requests make of the fixtures below the path `p` of the directory at `place`: those that
they ask for are run, and each of them once. -/
structure IsRun (d : Disk) (cwd : Place) (running : Version) (p : Path) (place : Place)
    (requests : List Text) (run : List CategoryResult) : Prop where
  exactly (q : Path) : (∃ r ∈ Report.resultsOf run, r.path = q) ↔
    ∃ dirs n, d.HasFixture place dirs n ∧ Wanted requests dirs ∧ q = p.below (dirs ++ [n])
  once : (Report.resultsOf run).Pairwise fun r r' => ¬ Path.Same r.path r'.path
  ran : ∀ r ∈ Report.resultsOf run, r = Fixture.run d cwd running r.path
  /-- A category is the directory that holds its files, seen from `p`. -/
  named : ∀ c ∈ run, ∀ r ∈ c.results, ∃ dirs n, d.HasFixture place dirs n ∧
    r.path = p.below (dirs ++ [n]) ∧ c.name = ['/'].intercalate dirs
  ordered : run.Pairwise fun c c' => order c.name c'.name = .lt
  sorted : ∀ c ∈ run, c.results ≠ [] ∧
    c.results.Pairwise fun r r' => r.path.order r'.path = .lt

/-- A result is about the fixture that was run. -/
theorem path_run (d : Disk) (cwd : Place) (running : Version) (q : Path) :
    (Fixture.run d cwd running q).path = q := by
  rw [Fixture.run]
  split <;> rfl

/-- The results of a run are those of its files, in order. -/
theorem resultsOf_run (d : Disk) (cwd : Place) (running : Version) (selected : List Category) :
    Report.resultsOf (selected.map (·.run d cwd running))
      = (selected.flatMap Category.files).map (Fixture.run d cwd running) := by
  rw [Report.resultsOf, List.flatMap_map, List.map_flatMap]
  rfl

variable (hd : d.Proper) (hfind : d.find cwd p = .ok (place, .directory permissions))
  (hslash : ∀ names node, d.node? (place ++ names) = some node → ∀ m ∈ names, '\\' ∉ m)

include hd hfind hslash

theorem nameOf_fixture {dirs : List Text} {n : Text} (hf : d.HasFixture place dirs n) :
    nameOf p (p.below (dirs ++ [n])) = ['/'].intercalate dirs := by
  have hnames := hf.inner hd
  obtain ⟨-, contents, permissions, hfile⟩ := hf
  exact nameOf_below (Disk.text_ne_nil_of_find hfind) hnames fun m hm =>
    hslash _ _ hfile m (List.mem_append_left _ hm)

/-- There is a group for every directory with a fixture in it. -/
theorem mem_discover {c : Category} : c ∈ discover d cwd p ↔
    ∃ dirs n, d.HasFixture place dirs n ∧ c = ⟨['/'].intercalate dirs,
      filesOf p ((d.filesUnder cwd p).filter isFixture) (['/'].intercalate dirs)⟩ := by
  rw [discover, mem_group]
  constructor
  · rintro ⟨q, hq, rfl⟩
    obtain ⟨dirs, n, hf, rfl⟩ := (Disk.mem_fixtures_iff hd hfind).1 hq
    rw [nameOf_fixture hd hfind hslash hf]
    exact ⟨dirs, n, hf, rfl⟩
  · rintro ⟨dirs, n, hf, rfl⟩
    refine ⟨_, (Disk.mem_fixtures_iff hd hfind).2 ⟨dirs, n, hf, rfl⟩, ?_⟩
    rw [nameOf_fixture hd hfind hslash hf]

/-- What the files of a category are. -/
theorem mem_files_of_discover {c : Category} (hc : c ∈ discover d cwd p) {q : Path} : q ∈ c.files ↔
    ∃ dirs n, d.HasFixture place dirs n ∧ q = p.below (dirs ++ [n]) ∧
      c.name = ['/'].intercalate dirs := by
  obtain ⟨dirs, n, hf, rfl⟩ := (mem_discover hd hfind hslash).1 hc
  rw [mem_filesOf, Disk.mem_fixtures_iff hd hfind]
  constructor
  · rintro ⟨⟨dirs', n', hf', rfl⟩, hname⟩
    rw [nameOf_fixture hd hfind hslash hf'] at hname
    exact ⟨dirs', n', hf', rfl, hname.symm⟩
  · rintro ⟨dirs', n', hf', rfl, hname⟩
    exact ⟨⟨dirs', n', hf', rfl⟩, (nameOf_fixture hd hfind hslash hf').trans hname.symm⟩

omit hfind hslash in
/-- A category is asked for exactly if the directory of its files is. -/
theorem mem_select_discover (hrequests : ∀ request ∈ requests, ∃ c ∈ request, c ≠ '/') {c : Category}
    {dirs : List Text} {n : Text} (hf : d.HasFixture place dirs n)
    (hname : c.name = ['/'].intercalate dirs) :
    c ∈ select (discover d cwd p) requests ↔ c ∈ discover d cwd p ∧ Wanted requests dirs := by
  rw [mem_select, Wanted, hname]
  refine and_congr_right fun _ => or_congr_right (exists_congr fun request => and_congr_right fun h => ?_)
  refine covers_iff (hrequests request h) fun m hm => ?_
  have hinner := hf.inner hd m (List.mem_append_left _ hm)
  exact ⟨hinner.1, hinner.text_ne_nil⟩

/-- The files of the groups that are selected are the fixtures that are asked for. -/
theorem mem_selected_files (hrequests : ∀ request ∈ requests, ∃ c ∈ request, c ≠ '/') {q : Path} :
    q ∈ (select (discover d cwd p) requests).flatMap Category.files ↔
      ∃ dirs n, d.HasFixture place dirs n ∧ Wanted requests dirs ∧ q = p.below (dirs ++ [n]) := by
  rw [List.mem_flatMap]
  constructor
  · rintro ⟨c, hc, hq⟩
    have hall := (select_sublist _ _).subset hc
    obtain ⟨dirs, n, hf, rfl, hname⟩ := (mem_files_of_discover hd hfind hslash hall).1 hq
    exact ⟨dirs, n, hf, ((mem_select_discover hd hrequests hf hname).1 hc).2, rfl⟩
  · rintro ⟨dirs, n, hf, hwanted, rfl⟩
    have hall := (mem_discover hd hfind hslash).2 ⟨dirs, n, hf, rfl⟩
    exact ⟨_, (mem_select_discover hd hrequests hf rfl).2 ⟨hall, hwanted⟩,
      (mem_files_of_discover hd hfind hslash hall).2 ⟨dirs, n, hf, rfl, rfl⟩⟩

/-- The files of a category go strictly up. -/
theorem increasing_files {c : Category} (hc : c ∈ discover d cwd p) :
    c.files.Pairwise fun q q' => q.order q' = .lt := by
  obtain ⟨dirs, n, -, rfl⟩ := (mem_discover hd hfind hslash).1 hc
  exact increasing_filesOf ((hd.distinct_filesUnder hfind).filter _) _

/-- However often a category is asked for, none of its files comes up twice. -/
theorem distinct_selected_files (requests : List Text) :
    ((select (discover d cwd p) requests).flatMap Category.files).Pairwise
      fun q q' => ¬ Path.Same q q' := by
  have hall {c : Category} (hc : c ∈ select (discover d cwd p) requests) : c ∈ discover d cwd p :=
    (select_sublist _ _).subset hc
  -- Two files of one group are in order, and two groups are different directories.
  refine List.pairwise_flatMap.2 ⟨fun c hc => ?_, ?_⟩
  · refine (increasing_files hd hfind hslash (hall hc)).imp fun hlt hsame => ?_
    rw [Path.order_eq_iff.2 hsame] at hlt
    cases hlt
  · -- Files that are the same place have the same names, and so are in one category.
    have hincreasing := (increasing_group _ _).sublist (select_sublist (discover d cwd p) requests)
    refine hincreasing.imp_of_mem fun hc hc' hlt q hq q' hq' hsame => ?_
    obtain ⟨dirs, n, hf, rfl, hname⟩ := (mem_files_of_discover hd hfind hslash (hall hc)).1 hq
    obtain ⟨dirs', n', hf', rfl, hname'⟩ := (mem_files_of_discover hd hfind hslash (hall hc')).1 hq'
    have hnames := Path.names_eq_of_same_below (Disk.text_ne_nil_of_find hfind) (hf.inner hd)
      (hf'.inner hd) hsame
    rw [hname, hname', (List.append_inj' hnames rfl).1, order_eq_iff.2 rfl] at hlt
    cases hlt

/-- Running the groups that are selected is a run in the sense above. -/
theorem isRun_select (hrequests : ∀ request ∈ requests, ∃ c ∈ request, c ≠ '/') :
    IsRun d cwd running p place requests
      ((select (discover d cwd p) requests).map (·.run d cwd running)) where
  exactly q := by
    rw [resultsOf_run, ← mem_selected_files hd hfind hslash hrequests]
    simp [path_run]
  once := by
    rw [resultsOf_run, List.pairwise_map]
    simpa only [path_run] using distinct_selected_files hd hfind hslash requests
  ran := by
    rw [resultsOf_run]
    rintro r hr
    obtain ⟨q, -, rfl⟩ := List.mem_map.1 hr
    rw [path_run]
  named := by
    rintro _ hrun r hr
    obtain ⟨c, hc, rfl⟩ := List.mem_map.1 hrun
    obtain ⟨q, hq, rfl⟩ := List.mem_map.1 hr
    rw [path_run]
    exact (mem_files_of_discover hd hfind hslash ((select_sublist _ _).subset hc)).1 hq
  ordered := List.pairwise_map.2 ((increasing_group _ _).sublist (select_sublist _ _))
  sorted := by
    rintro _ hrun
    obtain ⟨c, hc, rfl⟩ := List.mem_map.1 hrun
    have hall := (select_sublist _ _).subset hc
    constructor
    · obtain ⟨dirs, n, hf, hname⟩ := (mem_discover hd hfind hslash).1 hall
      have hmem := (mem_files_of_discover hd hfind hslash hall).2 ⟨dirs, n, hf, rfl, by rw [hname]⟩
      exact List.map_eq_nil_iff.not.2 (List.ne_nil_of_mem hmem)
    · rw [Category.run, List.pairwise_map]
      simpa only [path_run] using increasing_files hd hfind hslash hall

end Run

end Category

/-! ## Outcomes

A run ends in one of three ways: nothing is selected and nothing is run; the whole report is printed; or
the report breaks off.  The first two are told apart by whether there are results, so that one structure
does for both; the third has an exit code of its own, whatever came of the fixtures. -/

namespace CommandLine

/-- A warning is a line on a category that it names at its front. -/
def IsWarning (line : Text) : Prop := ∃ t, line = "warning: category '".toList ++ t ++ ['\n']

/-- What an outcome tells of a run: whether all went well, how many fixtures pass and fail, and of
each that fails, once, that it does. -/
structure Outcome.Tells (o : Outcome) (color : Bool) (run : List CategoryResult) : Prop where
  exitCode : o.exitCode = 0 ↔
    Report.resultsOf run ≠ [] ∧ ∀ r ∈ Report.resultsOf run, r.passed = true
  report : Report.resultsOf run ≠ [] →
    ∃ (warnings : List Text) (report : Text) (passed : Nat) (failed : List FixtureResult),
      o.stderr = warnings.flatten ++ report ∧ (∀ line ∈ warnings, IsWarning line) ∧
      Report.Accounts color run passed failed report ∧
      failed.Pairwise fun r r' => ¬ Path.Same r.path r'.path

/-- The report on a run breaks off: of a text that accounts for the run only the front is printed, and
then why it is not more. -/
structure Outcome.BreaksOff (o : Outcome) (limit : Printer.Limit) (color : Bool)
    (run : List CategoryResult) : Prop where
  exitCode : o.exitCode = 1
  report : ∃ (warnings : List Text) (report : Text) (passed : Nat) (failed : List FixtureResult),
    o.stderr = warnings.flatten ++ report.take limit.length ++
      (s!"error: cannot write test report: {limit.cause}".toList ++ ['\n']) ∧
    limit.length < report.length ∧ (∀ line ∈ warnings, IsWarning line) ∧
    Report.Accounts color run passed failed report ∧
    failed.Pairwise fun r r' => ¬ Path.Same r.path r'.path

section

variable {s : Surface} {d : Disk} {running : Version} {color : Bool} {p : Path} {place : Place}
  {permissions : Permissions} {requests : List Text}

theorem isWarning_warning (all : List Category) (request : Text) : IsWarning (warning all request) := by
  let available := ", ".intercalate (all.map fun c => String.ofList (Category.label c.name))
  refine ⟨(String.ofList (Category.trimSlashes request) ++ "' not found (available: " ++ available ++
    ")").toList, ?_⟩
  simp only [warning, messageLine, toString, String.toList_append, List.append_assoc]
  rfl

/-- Running some categories is running their fixtures and printing the report on that. -/
theorem runCategories_eq (s : Surface) (d : Disk) (running : Version) (color : Bool) (warnings : Text)
    (selected : List Category) :
    let run := selected.map (·.run d s.workingDirectory running)
    let report := (Report.ofRun true run).render color
    runCategories s d running true color warnings selected =
      match s.limit with
      | none =>
        { exitCode := if Report.failedOf run = [] then 0 else 1, stderr := warnings ++ report, disk := d }
      | some limit =>
        if limit.length < report.length then
          { exitCode := 1
            stderr := warnings ++ report.take limit.length ++
              messageLine s!"error: cannot write test report: {limit.cause}"
            disk := d }
        else
          { exitCode := if Report.failedOf run = [] then 0 else 1
            stderr := warnings ++ report
            disk := d } := by
  intro run report
  have hprint : Report.printRun (fun r => Printer.print s.limit (r.render color)) true
      (Fixture.run d s.workingDirectory running) selected
        = (do Printer.print s.limit report; return run) :=
    Report.printRun_eq Printer.print_nil
      (fun r r' => by rw [Report.render_append, Printer.print_append]) true _ selected
  rw [runCategories, hprint, Printer.output_print]
  cases s.limit with
  | none => rfl
  | some limit =>
    dsimp only
    by_cases h : limit.length < report.length
    · rw [if_pos h, if_pos h]
    · rw [if_neg h, if_neg h]

section

variable {warnings : List Text} {run : List CategoryResult} {selected : List Category}
  (hrun : run = selected.map (·.run d s.workingDirectory running))
  (hwarnings : ∀ line ∈ warnings, IsWarning line) (hne : Report.resultsOf run ≠ [])
  (hdistinct : (Report.resultsOf run).Pairwise fun r r' => ¬ Path.Same r.path r'.path)

include hwarnings hne hdistinct

/-- An outcome with the whole report and the exit code that goes with it tells of its run. -/
theorem tells_of_report {o : Outcome}
    (hexit : o.exitCode = if Report.failedOf run = [] then 0 else 1)
    (hstderr : o.stderr = warnings.flatten ++ (Report.ofRun true run).render color) :
    o.Tells color run where
  exitCode := by
    rw [hexit, ite_eq_left_iff, and_iff_right hne]
    simp [Report.failedOf]
  report _ := ⟨warnings, _, _, _, hstderr, hwarnings, Report.accounts_ofRun color run,
    hdistinct.filter _⟩

include hrun

/-- Without a limit on what can be printed, an outcome tells of its run. -/
theorem tells_runCategories (hlimit : s.limit = none) :
    (runCategories s d running true color warnings.flatten selected).Tells color run := by
  rw [runCategories_eq, hlimit, ← hrun]
  exact tells_of_report hwarnings hne hdistinct rfl rfl

/-- With one it does so, unless the report is longer. -/
theorem tells_or_breaksOff_runCategories {limit : Printer.Limit} (hlimit : s.limit = some limit) :
    (runCategories s d running true color warnings.flatten selected).Tells color run ∨
      (runCategories s d running true color warnings.flatten selected).BreaksOff limit color run := by
  rw [runCategories_eq, hlimit, ← hrun]
  dsimp only
  by_cases h : limit.length < ((Report.ofRun true run).render color).length
  · rw [if_pos h]
    exact .inr ⟨rfl, warnings, _, _, _, rfl, h, hwarnings, Report.accounts_ofRun color run,
      hdistinct.filter _⟩
  · rw [if_neg h]
    exact .inl (tells_of_report hwarnings hne hdistinct rfl rfl)

end

/-- Fixtures are run without anything being written. -/
theorem disk_runCategories (selected : List Category) (warnings : Text) :
    (runCategories s d running true color warnings selected).disk = d := by
  rw [runCategories_eq]
  split
  · rfl
  · split <;> rfl

/-- Where nothing was run there is no report, only the exit code. -/
theorem tells_nothing {o : Outcome} (h : o.exitCode = 1) : o.Tells color [] where
  exitCode := by simp [h, Report.resultsOf]
  report hne := absurd rfl hne

/-- **Running the fixtures below a directory**, each that is asked for is run once, however many
requests ask for it, and no other file is run; the report and the exit code tell how that went, unless
the report is longer than what can be printed of it. -/
theorem runTest_selects (hd : d.Proper)
    (hfind : d.find s.workingDirectory p = .ok (place, .directory permissions))
    (hslash : ∀ names node, d.node? (place ++ names) = some node → ∀ m ∈ names, '\\' ∉ m)
    (hrequests : ∀ request ∈ requests, ∃ c ∈ request, c ≠ '/') :
    ∃ run : List CategoryResult,
      Category.IsRun d s.workingDirectory running p place requests run ∧
      (s.limit = none → (runTest s d running color p requests).Tells color run) ∧
      (∀ limit, s.limit = some limit → (runTest s d running color p requests).Tells color run ∨
        (runTest s d running color p requests).BreaksOff limit color run) ∧
      (runTest s d running color p requests).disk = d := by
  have hrun : Category.IsRun d s.workingDirectory running p place requests _ :=
    Category.isRun_select hd hfind hslash hrequests
  refine ⟨_, hrun, ?_⟩
  have hfile : d.isFile s.workingDirectory p = false := by rw [Disk.isFile, hfind]
  have hsublist := Category.select_sublist (Category.discover d s.workingDirectory p) requests
  rw [runTest, if_neg (by simp [hfile])]
  dsimp only
  generalize Category.discover d s.workingDirectory p = all at hrun hsublist ⊢
  generalize Category.select all requests = selected at hrun hsublist ⊢
  by_cases hall : all = []
  · obtain rfl : selected = [] := List.sublist_nil.1 (hall ▸ hsublist)
    rw [if_pos hall]
    exact ⟨fun _ => tells_nothing rfl, fun _ _ => .inl (tells_nothing rfl), rfl⟩
  rw [if_neg hall]
  by_cases hnone : selected = []
  · subst hnone
    rw [if_pos rfl]
    exact ⟨fun _ => tells_nothing rfl, fun _ _ => .inl (tells_nothing rfl), rfl⟩
  rw [if_neg hnone, List.flatMap_def]
  have hwarnings : ∀ line ∈ (Category.unknown all requests).map (warning all), IsWarning line := by
    intro line hline
    obtain ⟨request, -, rfl⟩ := List.mem_map.1 hline
    exact isWarning_warning all request
  have hne : Report.resultsOf (selected.map (·.run d s.workingDirectory running)) ≠ [] := by
    -- A category that is selected has files, and so it has results.
    obtain ⟨c, hc⟩ := List.exists_mem_of_ne_nil _ hnone
    have hresults := (hrun.sorted _ (List.mem_map_of_mem hc)).1
    obtain ⟨r, hr⟩ := List.exists_mem_of_ne_nil _ hresults
    exact List.ne_nil_of_mem (List.mem_flatMap.2 ⟨_, List.mem_map_of_mem hc, hr⟩)
  exact ⟨tells_runCategories rfl hwarnings hne hrun.once,
    fun _ => tells_or_breaksOff_runCategories rfl hwarnings hne hrun.once, disk_runCategories ..⟩

end

/-- Fixtures in a directory `t`, in two directories in it of which one is named like the front of the
other, and further down. -/
def nestedFixtures : Disk :=
  .ofPlaces (["t/a.test.dswift", "t/inc/b.test.dswift", "t/inc/deep/c.test.dswift",
    "t/includes/d.test.dswift", "t/inc/e.dswift"].map fun p => p.toList.splitOn '/') []

/-- Requests that overlap, that are repeated, and one that names the front of a directory's name. -/
def overlappingRequests : List Text := ["inc/", "/inc/deep", "inc", "in"].map String.toList

theorem runTest_selects_overlapping : nestedFixtures.Proper ∧
    nestedFixtures.find [] (.ofString "t") = .ok (["t".toList], .directory .fresh) ∧
    (∀ request ∈ overlappingRequests, ∃ c ∈ request, c ≠ '/') ∧
    ∃ run : List CategoryResult,
      Category.IsRun nestedFixtures [] Version.current (.ofString "t") ["t".toList]
        overlappingRequests run ∧
      (runTest { workingDirectory := [] } nestedFixtures Version.current false (.ofString "t")
        overlappingRequests).Tells false run ∧
      (runTest { workingDirectory := [] } nestedFixtures Version.current false (.ofString "t")
        overlappingRequests).disk = nestedFixtures := by
  have hd : nestedFixtures.Proper := Disk.proper_ofPlaces (by decide +kernel) _
  have hfind : nestedFixtures.find [] (.ofString "t") = .ok (["t".toList], .directory .fresh) := by
    decide +kernel
  have hrequests : ∀ request ∈ overlappingRequests, ∃ c ∈ request, c ≠ '/' := by
    have hany : overlappingRequests.all (·.any (· ≠ '/')) = true := by decide
    simpa only [List.all_eq_true, List.any_eq_true, decide_eq_true_eq] using hany
  have hslash : ∀ entry ∈ nestedFixtures.nodes, ∀ m ∈ entry.1, '\\' ∉ m := by decide +kernel
  obtain ⟨run, hrun, htells, -, hdisk⟩ :=
    @runTest_selects { workingDirectory := [] } nestedFixtures Version.current false _ _ _ _ hd hfind
      (fun names node hnode m hm =>
        hslash _ ((hd.node?_eq_some_iff (by simp)).1 hnode) m (List.mem_append_right _ hm)) hrequests
  exact ⟨hd, hfind, hrequests, run, hrun, htells rfl, hdisk⟩

end CommandLine
end Templating
