import Templating.Proofs.Include.Reference
import Templating.Proofs.Include.Trace

/-!
# What an expander remembers of what it reads

An expander remembers the files that it has expanded as includes, and it does not read them again.  A
file that it gave up, because an error came up in it, is not remembered, and can be read again when
the expander is used for another file.

## What is here

* `BuildError.abandoned` are the files that were given up when an error came up.
* `Expander.Recalls` says what a run makes of the files it reads: all of them were unknown before, each
  is read once, and in the end it is either remembered or given up.
* `Expander.NeverAgain` is what follows for an expander that is used for many files.
-/

set_option autoImplicit false

namespace Templating

/-! ## Files that are given up

An error that comes out of an included file has a wrapper for each file that was being expanded.  These
are the files that were read and will not be remembered, and the error itself tells them: the path in a
tag and the file in which the tag stands lead to the next one. -/

/-- The files that were given up when an error came up, outermost first. -/
def BuildError.abandoned : BuildError → List Path
  | failedToIncludeFile includePath l e => Path.resolve l.path ⟨includePath⟩ :: e.abandoned
  | _ => []

/-- The files that were given up on the way to a result. -/
def BuildError.abandonedIn {α : Type} : Except BuildError α → List Path
  | .ok _ => []
  | .error e => e.abandoned

/-- An error without wrappers gives up nothing. -/
theorem BuildError.abandoned_of_includeChain {e : BuildError} (h : e.includeChain = []) :
    e.abandoned = [] := by
  cases e with
  | failedToIncludeFile => cases h
  | _ => rfl

/-- A file that cannot be read gives up no other file. -/
theorem FileSystem.abandoned_of_readText {fs : FileSystem} {p : Path}
    {encoding : Option TextEncoding} {e : BuildError} (h : fs.readText p encoding = .error e) :
    e.abandoned = [] := by
  rcases eq_of_readText h with ⟨cause, rfl⟩ | rfl | ⟨used, rfl⟩
  · rfl
  · rfl
  · rfl

/-- Nor does one that is not accepted. -/
theorem Outline.abandoned_of_ofText {running : Version} {path : Path} {text : Text}
    {e : BuildError} (h : Outline.ofText running path text = .error e) : e.abandoned = [] :=
  BuildError.abandoned_of_includeChain (BuildError.includeChain_of_isOwn (raisedIn_of_ofText h).own)

/-- A wrapper gives up the file that its tag names. -/
theorem IncludeTag.StandsIn.abandoned_failure {tag : IncludeTag} {file : SourceFile}
    (h : tag.StandsIn file) (e : BuildError) :
    (tag.failure file e).abandoned = tag.target :: e.abandoned := by
  rw [h.target]
  rfl

/-! ## What one run remembers

A run is described by what it read and what it gave up.  The description is put together in the way the
run goes: one tag after another (`trans`), a file around the tags in it (`abandon`), and, if all went
well, the file remembered (`remember`).  While a file is in progress it is neither remembered nor read,
which is why it is not read twice. -/

namespace Expander

/-- Looking up does not depend on the spelling of a path. -/
theorem find?_congr (x : Expander) {p q : Path} (h : Path.Same p q) : x.find? p = x.find? q := by
  rw [find?, find?]
  congr 2
  funext entry
  rw [decide_eq_decide]
  exact ⟨fun hentry => hentry.trans h, fun hentry => hentry.trans h.symm⟩

/-- How a run that read some files and gave some up, with others in progress, changed what is
remembered. -/
structure Recalls (stack : List Path) (x : Expander) (read abandoned : List Path) (x' : Expander) :
    Prop where
  /-- What was read comes behind all that was read before. -/
  reads : x'.reads = x.reads ++ read
  once : read.Pairwise fun p q => ¬ Path.Same p q
  idle : ∀ p ∈ read, ∀ q ∈ stack, ¬ Path.Same q p
  /-- Only what is not remembered is read. -/
  fresh : ∀ p ∈ read, x.find? p = none
  kept : ∀ p, (x.find? p).isSome = true → (x'.find? p).isSome = true
  /-- What is in progress is not remembered before it is done. -/
  pending : ∀ p ∈ stack, x.find? p = none → x'.find? p = none
  /-- Of what was read, nothing gets lost. -/
  settled : ∀ p ∈ read, (x'.find? p).isSome = true ∨ p ∈ abandoned
  lost : ∀ p ∈ abandoned, x'.find? p = none

namespace Recalls

variable {stack read read' abandoned : List Path} {x x' x'' : Expander}

/-- A run that reads nothing. -/
theorem nothing (stack : List Path) (x : Expander) : Recalls stack x [] [] x where
  reads := (List.append_nil _).symm
  once := .nil
  idle := by simp
  fresh := by simp
  kept _ h := h
  pending _ _ h := h
  settled := by simp
  lost := by simp

/-- What is not remembered in the end was not before. -/
theorem find?_eq_none (h : Recalls stack x read abandoned x') {p : Path}
    (hp : x'.find? p = none) : x.find? p = none := by
  refine Option.not_isSome_iff_eq_none.1 fun hx => ?_
  have hx' := h.kept p hx
  rw [hp] at hx'
  cases hx'

/-- One run after another, the first of which gave nothing up. -/
theorem trans (h : Recalls stack x read [] x') (h' : Recalls stack x' read' abandoned x'') :
    Recalls stack x (read ++ read') abandoned x'' where
  reads := by rw [h'.reads, h.reads, List.append_assoc]
  once := by
    refine List.pairwise_append.2 ⟨h.once, h'.once, fun p hp q hq hsame => ?_⟩
    -- What the first run read is remembered, and what the second one read was not.
    rcases h.settled p hp with hknown | habandoned
    · rw [x'.find?_congr hsame, h'.fresh q hq] at hknown
      cases hknown
    · exact absurd habandoned List.not_mem_nil
  idle p hp := by
    rcases List.mem_append.1 hp with hp | hp
    · exact h.idle p hp
    · exact h'.idle p hp
  fresh p hp := by
    rcases List.mem_append.1 hp with hp | hp
    · exact h.fresh p hp
    · exact h.find?_eq_none (h'.fresh p hp)
  kept p hp := h'.kept p (h.kept p hp)
  pending p hp hx := h'.pending p hp (h.pending p hp hx)
  settled p hp := by
    rcases List.mem_append.1 hp with hp | hp
    · rcases h.settled p hp with hknown | habandoned
      · exact .inl (h'.kept p hknown)
      · exact absurd habandoned List.not_mem_nil
    · exact h'.settled p hp
  lost := h'.lost

/-- The file that a tag names is read before what its own tags name, and given up with it. -/
theorem abandon {p : Path} (hx : x.find? p = none) (hs : ∀ q ∈ stack, ¬ Path.Same q p)
    (h : Recalls (stack ++ [p]) (x.note p) read abandoned x') :
    Recalls stack x (p :: read) (p :: abandoned) x' where
  reads := by
    rw [h.reads, note, List.append_assoc]
    rfl
  once := List.pairwise_cons.2 ⟨fun q hq => h.idle q hq p (by simp), h.once⟩
  idle q hq := by
    rcases List.mem_cons.1 hq with rfl | hq
    · exact hs
    · exact fun r hr => h.idle q hq r (List.mem_append_left _ hr)
  fresh q hq := by
    rcases List.mem_cons.1 hq with rfl | hq
    · exact hx
    · exact h.fresh q hq
  kept := h.kept
  pending q hq := h.pending q (List.mem_append_left _ hq)
  settled q hq := by
    rcases List.mem_cons.1 hq with rfl | hq
    · exact .inr (List.mem_cons_self ..)
    · exact (h.settled q hq).imp_right (List.mem_cons_of_mem p)
  lost q hq := by
    rcases List.mem_cons.1 hq with rfl | hq
    · exact h.pending q (by simp) hx
    · exact h.lost q hq

/-- Once a file is expanded it is remembered. -/
theorem remember {p : Path} (h : Recalls stack x (p :: read) [p] x') (d : Document) :
    Recalls stack x (p :: read) [] (x'.remember p d) := by
  have hkept : ∀ q, (x'.find? q).isSome = true → ((x'.remember p d).find? q).isSome = true := by
    intro q hq
    rw [find?_remember]
    split
    · rfl
    · exact hq
  refine ⟨h.reads, h.once, h.idle, h.fresh, fun q hq => hkept q (h.kept q hq), fun q hq hx => ?_,
    fun q hq => ?_, by simp⟩
  · -- The file was none of those in progress, so none of them becomes known with it.
    have hother : ¬ Path.Same p q :=
      fun hsame => h.idle p (List.mem_cons_self ..) q hq hsame.symm
    rw [find?_remember, if_neg hother]
    exact h.pending q hq hx
  · rcases h.settled q hq with hknown | habandoned
    · exact .inl (hkept q hknown)
    · obtain rfl := List.mem_singleton.1 habandoned
      rw [find?_remember, if_pos (Path.Same.refl q)]
      exact .inl rfl

/-- Of what was read, everything that was not given up is remembered. -/
theorem settled_iff (h : Recalls stack x read abandoned x') {p : Path} (hp : p ∈ read) :
    (x'.find? p).isSome = true ↔ p ∉ abandoned := by
  refine ⟨fun hknown hlost => ?_, (h.settled p hp).resolve_right⟩
  rw [h.lost p hlost] at hknown
  cases hknown

end Recalls

/-- Every run can be described so. -/
theorem recallsRule (s : Surroundings) :
    Rule s
      (fun stack file tag x r x' => tag.StandsIn file →
        ∃ read, Recalls stack x read (BuildError.abandonedIn r) x')
      (fun stack file _ tags x r x' => (∀ tag ∈ tags, tag.StandsIn file) →
        ∃ read, Recalls stack x read (BuildError.abandonedIn r) x') where
  known _ := fun _ => ⟨[], .nothing _ _⟩
  cyclic _ _ := fun _ => ⟨[], .nothing _ _⟩
  missing _ _ _ := fun _ => ⟨[], .nothing _ _⟩
  -- The file was read, and it is given up at once.
  unreadable hx hs _ hread := by
    intro htag
    rw [BuildError.abandonedIn, htag.abandoned_failure, FileSystem.abandoned_of_readText hread]
    exact ⟨_, (Recalls.nothing _ _).abandon hx hs⟩
  refused hx hs _ _ ho := by
    intro htag
    rw [BuildError.abandonedIn, htag.abandoned_failure, Outline.abandoned_of_ofText ho]
    exact ⟨_, (Recalls.nothing _ _).abandon hx hs⟩
  failed hx hs _ _ ho _ ih := by
    intro htag
    obtain ⟨read, hread⟩ := ih (Outline.standsIn_of_ofText ho)
    rw [BuildError.abandonedIn, htag.abandoned_failure]
    exact ⟨_, hread.abandon hx hs⟩
  expanded hx hs _ _ ho _ ih := by
    intro _
    obtain ⟨read, hread⟩ := ih (Outline.standsIn_of_ofText ho)
    exact ⟨_, (hread.abandon hx hs).remember _⟩
  nil := fun _ => ⟨[], .nothing _ _⟩
  stopped _ ih := fun htags => ih (htags _ (List.mem_cons_self ..))
  stoppedLater _ ih _ ihlater := by
    intro htags
    obtain ⟨read, hread⟩ := ih (htags _ (List.mem_cons_self ..))
    obtain ⟨read', hread'⟩ := ihlater fun t ht => htags t (List.mem_cons_of_mem _ ht)
    exact ⟨_, hread.trans hread'⟩
  cons _ ih _ ihlater := by
    intro htags
    obtain ⟨read, hread⟩ := ih (htags _ (List.mem_cons_self ..))
    obtain ⟨read', hread'⟩ := ihlater fun t ht => htags t (List.mem_cons_of_mem _ ht)
    exact ⟨_, hread.trans hread'⟩

/-- The same of a file that is expanded by itself, which is in progress from the start. -/
theorem recalls_expand (s : Surroundings) (path : Path) (text : Text) (x : Expander) :
    ∃ read, Recalls [path] x read (BuildError.abandonedIn (expand s path text x).1)
      (expand s path text x).2 := by
  cases ho : Outline.ofText s.running path text with
  | error e =>
    rw [expand, ho]
    dsimp only
    rw [BuildError.abandonedIn, Outline.abandoned_of_ofText ho]
    exact ⟨[], .nothing _ _⟩
  | ok o =>
    rw [expand_of_ofText ho]
    obtain ⟨read, hread⟩ := (recallsRule s).tags [path] o.file o.start o.tags x
      (Outline.standsIn_of_ofText ho)
    refine ⟨read, ?_⟩
    cases hrun : (expandTags s [path] o.file o.start o.tags x).1 with
    | error e =>
      rw [hrun] at hread
      exact hread
    | ok pieces =>
      rw [hrun] at hread
      exact hread

/-! ## One expander for many files

What an expander remembers grows from call to call.  So of what one call remembers nothing is read by a
later one, whatever the calls are and whether or not they fail. -/

/-- However often an expander is used, it does not read what it remembers. -/
theorem fresh_of_session (s : Surroundings) (calls : List (Path × Text)) (x : Expander) :
    ∃ read, (session s calls x).2.reads = x.reads ++ read ∧
      (∀ p ∈ read, x.find? p = none) ∧
      ∀ p, (x.find? p).isSome = true → ((session s calls x).2.find? p).isSome = true := by
  induction calls generalizing x with
  | nil => exact ⟨[], (List.append_nil _).symm, by simp, fun _ h => h⟩
  | cons call calls ih =>
    obtain ⟨path, text⟩ := call
    obtain ⟨read, hread⟩ := recalls_expand s path text x
    obtain ⟨later, hreads, hfresh, hkept⟩ := ih (expand s path text x).2
    refine ⟨read ++ later, ?_, ?_, fun p hp => hkept p (hread.kept p hp)⟩
    · show (session s calls (expand s path text x).2).2.reads = _
      rw [hreads, hread.reads, List.append_assoc]
    · intro p hp
      rcases List.mem_append.1 hp with hp | hp
      · exact hread.fresh p hp
      · exact hread.find?_eq_none (hfresh p hp)

/-- Some calls and then some others. -/
theorem session_append (s : Surroundings) (before after : List (Path × Text)) (x : Expander) :
    (session s (before ++ after) x).2 = (session s after (session s before x).2).2 := by
  induction before generalizing x with
  | nil => rfl
  | cons call before ih => exact ih _

/-- An expander that is used for the files `before`, then for `call`, then for those `after`, does not
read any file twice for `call`.  What it read for `call` and did not give up is remembered, and what is
remembered is not read afterwards. -/
def NeverAgain (s : Surroundings) (before : List (Path × Text)) (call : Path × Text)
    (after : List (Path × Text)) : Prop :=
  let x := (session s before {}).2
  let (result, x') := expand s call.1 call.2 x
  ∃ read later, x'.reads = x.reads ++ read ∧
    (session s (before ++ call :: after) {}).2.reads = x.reads ++ read ++ later ∧
    (read.Pairwise fun p q => ¬ Path.Same p q) ∧
    (∀ p ∈ read, (x'.find? p).isSome = true ↔ p ∉ BuildError.abandonedIn result) ∧
    ∀ p, (x'.find? p).isSome = true → ∀ q ∈ later, ¬ Path.Same p q

/-- This is so of every call. -/
theorem neverAgain (s : Surroundings) (before : List (Path × Text)) (call : Path × Text)
    (after : List (Path × Text)) : NeverAgain s before call after := by
  obtain ⟨path, text⟩ := call
  obtain ⟨read, hread⟩ := recalls_expand s path text (session s before {}).2
  obtain ⟨later, hreads, hfresh, -⟩ :=
    fresh_of_session s after (expand s path text (session s before {}).2).2
  refine ⟨read, later, hread.reads, ?_, hread.once, fun p => hread.settled_iff,
    fun p hp q hq hsame => ?_⟩
  · rw [session_append, ← hread.reads, ← hreads]
    rfl
  · have hknown : ((expand s path text (session s before {}).2).2.find? p).isSome = true := hp
    rw [find?_congr _ hsame, hfresh q hq] at hknown
    cases hknown

end Expander
end Templating
