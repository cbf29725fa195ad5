import Mathlib.Data.Finset.Card
import Templating.Generator
import Templating.Proofs.Include.Rule

/-!
# How deep includes are nested

Expansion goes into a file only if it is not in progress already, so no more files are ever in
progress than there are.  To say so, this file expands within a budget: a bound on the number of files
in progress, at which expansion gives up.  It is plain recursion on the budget.

## What is here

* `FileSystem.count` is the number of files, and `FileSystem.fresh` the number of those that are not
  among some paths.
* `Expander.expandTagWithin`, `Expander.expandWithin` and `Generator.expandWithin` expand within a
  budget.
* `Generator.expandWithin_count`: a budget of all the files there are is never used up.
-/

set_option autoImplicit false

namespace Templating

/-! ## Counting files

Files are counted by their places, as a file may have more than one spelling.  Each file that is in
progress takes one place away, and none is taken twice. -/

namespace FileSystem

/-- The places where there is a file.  Spellings of one place are the same file. -/
def places (fs : FileSystem) : Finset (List Component) :=
  (fs.entries.map fun entry => entry.1.components).toFinset

/-- The number of files. -/
def count (fs : FileSystem) : Nat := fs.places.card

/-- The number of files that are none of some paths. -/
def fresh (fs : FileSystem) (stack : List Path) : Nat :=
  (fs.places \ (stack.map Path.components).toFinset).card

variable {fs : FileSystem}

/-- A file that is there has one of the places. -/
theorem mem_places_of_isSome {p : Path} (h : (fs.find? p).isSome = true) :
    p.components ∈ fs.places := by
  obtain ⟨contents, hc⟩ := Option.isSome_iff_exists.1 h
  obtain ⟨entry, hentry, -⟩ := Option.map_eq_some_iff.1 hc
  have hsame : Path.Same entry.1 p := by simpa using List.find?_some hentry
  rw [places, List.mem_toFinset, List.mem_map]
  exact ⟨entry, List.mem_of_find?_eq_some hentry, hsame⟩

/-- As long as nothing is in progress all files are left. -/
theorem fresh_nil (fs : FileSystem) : fs.fresh [] = fs.count := by
  rw [fresh, List.map_nil, List.toFinset_nil, Finset.sdiff_empty, count]

/-- Going into a file that is there and is not in progress leaves one file fewer. -/
theorem fresh_append {stack : List Path} {p : Path} (hp : (fs.find? p).isSome = true)
    (hs : ∀ q ∈ stack, ¬ Path.Same q p) : fs.fresh (stack ++ [p]) + 1 = fs.fresh stack := by
  have hmem : p.components ∈ fs.places \ (stack.map Path.components).toFinset := by
    refine Finset.mem_sdiff.2 ⟨mem_places_of_isSome hp, fun h => ?_⟩
    obtain ⟨q, hq, hsame⟩ := List.mem_map.1 (List.mem_toFinset.1 h)
    exact hs q hq hsame
  have herase : fs.places \ ((stack ++ [p]).map Path.components).toFinset
      = (fs.places \ (stack.map Path.components).toFinset).erase p.components := by
    ext cs
    simp only [Finset.mem_sdiff, Finset.mem_erase, List.map_append, List.map_cons, List.map_nil,
      List.mem_toFinset, List.mem_append, List.mem_singleton]
    tauto
  rw [fresh, herase]
  exact Finset.card_erase_add_one hmem

/-- A budget of as many files as are left is enough to go into one more. -/
theorem exists_budget {stack : List Path} {p : Path} {budget : Nat}
    (hp : (fs.find? p).isSome = true) (hs : ∀ q ∈ stack, ¬ Path.Same q p)
    (hbudget : fs.fresh stack ≤ budget) :
    ∃ rest, budget = rest + 1 ∧ fs.fresh (stack ++ [p]) ≤ rest := by
  rw [← fresh_append hp hs] at hbudget
  obtain ⟨rest, rfl⟩ := Nat.exists_eq_add_one.2 (Nat.lt_of_lt_of_le (Nat.succ_pos _) hbudget)
  exact ⟨rest, rfl, Nat.le_of_succ_le_succ hbudget⟩

end FileSystem

/-! ## Expanding within a budget

The recursion on the budget does what expansion does, step by step, and it can be evaluated.  So it
serves two purposes: it bounds how deep files are nested, and it shows what comes of a given file. -/

namespace Expander

/-- Works through the tags of a file with a way to expand the file that a tag names, which may give
up. -/
def expandTagsBy (step : IncludeTag → Expander → Option (Except BuildError Document × Expander))
    (file : SourceFile) :
    Nat → List IncludeTag → Expander → Option (Except BuildError (List Piece) × Expander)
  | cursor, [], x => some (.ok (Piece.copied file ⟨cursor, file.text.size⟩), x)
  | cursor, tag :: tags, x =>
    match step tag x with
    | none => none
    | some (.error e, x) => some (.error e, x)
    | some (.ok d, x) =>
      match expandTagsBy step file tag.span.stop tags x with
      | none => none
      | some (.error e, x) => some (.error e, x)
      | some (.ok pieces, x) =>
        some (.ok (Piece.copied file ⟨cursor, tag.span.start⟩ ++ tag.replacement file d ++ pieces), x)

/-- Expands the file that a tag names while at most `budget` more files are in progress; gives up if
there is need for more. -/
def expandTagWithin (s : Surroundings) (budget : Nat) (stack : List Path) (file : SourceFile)
    (tag : IncludeTag) (x : Expander) : Option (Except BuildError Document × Expander) :=
  match x.find? tag.target with
  | some d => some (.ok d, x)
  | none =>
    if stack.any fun q => Path.Same q tag.target then
      some (.error (.cyclicInclude tag.includePath (stack ++ [tag.target])
        (file.locate tag.span)), x)
    else if (s.files.find? tag.target).isSome then
      let x := x.note tag.target
      match s.files.readText tag.target none with
      | .error e => some (.error (tag.failure file e), x)
      | .ok (text, _) =>
        match Outline.ofText s.running tag.target text with
        | .error e => some (.error (tag.failure file e), x)
        | .ok o =>
          match budget with
          | 0 => none
          | budget + 1 =>
            let stack := stack ++ [tag.target]
            match expandTagsBy (expandTagWithin s budget stack o.file) o.file o.start o.tags x with
            | none => none
            | some (.error e, x) => some (.error (tag.failure file e), x)
            | some (.ok pieces, x) =>
              some (.ok ⟨o.file, pieces⟩, x.remember tag.target ⟨o.file, pieces⟩)
    else
      some (.error (.includedFileNotFound tag.includePath tag.target (file.locate tag.span)), x)

/-- Expands the file at `path` while at most `budget` files are in progress, this one among them. -/
def expandWithin (s : Surroundings) (budget : Nat) (path : Path) (text : Text) (x : Expander) :
    Option (Except BuildError Document × Expander) :=
  match Outline.ofText s.running path text with
  | .error e => some (.error e, x)
  | .ok o =>
    match budget with
    | 0 => none
    | budget + 1 =>
      match expandTagsBy (expandTagWithin s budget [path] o.file) o.file o.start o.tags x with
      | none => none
      | some (.error e, x) => some (.error e, x)
      | some (.ok pieces, x) => some (.ok ⟨o.file, pieces⟩, x)

/-- A budget of as many files as are left is never used up. -/
theorem budgetRule (s : Surroundings) :
    Rule s
      (fun stack file tag x r x' => ∀ budget, s.files.fresh stack ≤ budget →
        expandTagWithin s budget stack file tag x = some (r, x'))
      (fun stack file cursor tags x r x' => ∀ budget, s.files.fresh stack ≤ budget →
        expandTagsBy (expandTagWithin s budget stack file) file cursor tags x = some (r, x')) where
  known hx := by
    intro budget _
    rw [expandTagWithin, hx]
  -- Nothing is expanded in these cases, so the budget is not touched.
  cyclic hx hs := by
    intro budget _
    rw [expandTagWithin, hx]
    exact if_pos (by simpa using hs)
  missing hx hs hf := by
    intro budget _
    rw [expandTagWithin, hx]
    dsimp only
    rw [if_neg (by simpa using hs), if_neg (by simp [hf])]
  unreadable hx hs hf hread := by
    intro budget _
    rw [expandTagWithin, hx]
    dsimp only
    rw [if_neg (by simpa using hs), if_pos hf, hread]
  refused hx hs hf hread ho := by
    intro budget _
    rw [expandTagWithin, hx]
    dsimp only
    rw [if_neg (by simpa using hs), if_pos hf, hread]
    dsimp only
    rw [ho]
  failed hx hs hf hread ho _ ih := by
    intro budget hbudget
    obtain ⟨rest, rfl, hrest⟩ := FileSystem.exists_budget hf hs hbudget
    rw [expandTagWithin, hx]
    dsimp only
    rw [if_neg (by simpa using hs), if_pos hf, hread]
    dsimp only
    rw [ho]
    dsimp only
    rw [ih rest hrest]
  expanded hx hs hf hread ho _ ih := by
    intro budget hbudget
    obtain ⟨rest, rfl, hrest⟩ := FileSystem.exists_budget hf hs hbudget
    rw [expandTagWithin, hx]
    dsimp only
    rw [if_neg (by simpa using hs), if_pos hf, hread]
    dsimp only
    rw [ho]
    dsimp only
    rw [ih rest hrest]
  nil := by
    intro _ _ _ _ budget _
    rw [expandTagsBy]
  stopped _ ih := by
    intro budget hbudget
    rw [expandTagsBy, ih budget hbudget]
  stoppedLater _ ih _ ihlater := by
    intro budget hbudget
    rw [expandTagsBy, ih budget hbudget]
    dsimp only
    rw [ihlater budget hbudget]
  cons _ ih _ ihlater := by
    intro budget hbudget
    rw [expandTagsBy, ih budget hbudget]
    dsimp only
    rw [ihlater budget hbudget]

/-- A file that is there is expanded within a budget of all the files there are. -/
theorem expandWithin_count {s : Surroundings} {path : Path} (h : (s.files.find? path).isSome = true)
    (text : Text) (x : Expander) :
    expandWithin s s.files.count path text x = some (expand s path text x) := by
  have hfresh : s.files.fresh [path] + 1 = s.files.count := by
    have hnone : ∀ q ∈ ([] : List Path), ¬ Path.Same q path := fun q hq => absurd hq List.not_mem_nil
    have happend := FileSystem.fresh_append h hnone
    rwa [FileSystem.fresh_nil] at happend
  rw [expandWithin, expand, ← hfresh]
  cases Outline.ofText s.running path text with
  | error e => rfl
  | ok o =>
    dsimp only
    rw [(budgetRule s).tags [path] o.file o.start o.tags x _ (Nat.le_refl _)]
    generalize expandTags s [path] o.file o.start o.tags x = r
    obtain ⟨_ | pieces, x'⟩ := r
    · rfl
    · rfl

end Expander

/-! ## Templates

A template is the first of the files in progress, and it is there if it could be read. -/

namespace Generator

/-- Reads a template and expands its include tags while at most `budget` files are in progress. -/
def expandWithin (g : Generator) (budget : Nat) (template : Path) (encoding : Option TextEncoding) :
    Option (Logged ExpandedTemplate) :=
  match g.absolute template with
  | .error e => some ⟨.error e, []⟩
  | .ok path =>
    match g.files.readText path encoding with
    | .error e => some ⟨.error e, [path]⟩
    | .ok (text, encoding) =>
      match Expander.expandWithin g.surroundings budget path text { reads := [path] } with
      | none => none
      | some (result, x) => some ⟨result.map (⟨path, ·, encoding⟩), x.reads⟩

/-- **A budget of all the files there are is enough**, for every template. -/
theorem expandWithin_count (g : Generator) (template : Path) (encoding : Option TextEncoding) :
    g.expandWithin g.files.count template encoding = some (g.expand template encoding) := by
  rw [expandWithin, expand]
  cases g.absolute template with
  | error e => rfl
  | ok path =>
    dsimp only
    cases hread : g.files.readText path encoding with
    | error e => rfl
    | ok r =>
      obtain ⟨text, encoding⟩ := r
      have hpath : (g.surroundings.files.find? path).isSome = true :=
        FileSystem.isSome_find?_of_readText hread
      dsimp only
      rw [show g.files.count = g.surroundings.files.count from rfl,
        Expander.expandWithin_count hpath]

/-- What can be seen of an expansion within a budget of all the files there are holds of the expansion. -/
theorem holds_of_within {g : Generator} {template : Path} {encoding : Option TextEncoding}
    {holds : Logged ExpandedTemplate → Bool}
    (h : (g.expandWithin g.files.count template encoding).any holds = true) :
    holds (g.expand template encoding) = true := by
  rwa [expandWithin_count, Option.any_some] at h

/-- An expansion within such a budget shows that a template can be expanded. -/
theorem exists_expand {g : Generator} {template : Path} {encoding : Option TextEncoding}
    (h : ((g.expandWithin g.files.count template encoding).any fun r => r.result.isOk) = true) :
    ∃ t, (g.expand template encoding).result = .ok t := by
  have hok := holds_of_within h
  cases hresult : (g.expand template encoding).result with
  | error e =>
    rw [hresult] at hok
    cases hok
  | ok t => exact ⟨t, rfl⟩

/-- An expansion within such a budget shows how a template cannot be expanded. -/
theorem expand_eq_error_of_within {g : Generator} {template : Path} {encoding : Option TextEncoding}
    {e : BuildError} (h : ((g.expandWithin g.files.count template encoding).any fun r =>
      match r.result with
      | .error e' => e' = e
      | .ok _ => false) = true) : (g.expand template encoding).result = .error e := by
  have herror := holds_of_within h
  split at herror
  · next e' he' => rw [he', of_decide_eq_true herror]
  · cases herror

/-- What a program is made of an expansion within such a budget. -/
theorem result_program_of_within {g : Generator} {serial : Nat} {template : Path}
    {encoding : Option TextEncoding} {r : Except BuildError Program}
    (h : ((g.expandWithin g.files.count template encoding).map fun expanded =>
      expanded.result.bind fun t => Program.ofDocument (g.context serial t) t.document) = some r) :
    (g.program serial template encoding).result = r := by
  rw [expandWithin_count, Option.map_some, Option.some_inj] at h
  exact h

end Generator
end Templating
