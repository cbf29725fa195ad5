import Templating.Proofs.Include.Memory
import Templating.Proofs.Include.Nesting
import Templating.Proofs.Path.Resolution

/-!
# The paths that an expansion compares

An expansion compares paths at every tag that it comes to: with the files that it remembers, with the
files in progress, and with the files there are.  All of them are folded when the path of the template
is, so a file has one spelling for the whole run and is never taken for another one.

## What is here

* `Expander.ComesTo` are the tags that a run comes to, each with the files in progress there and with
  what is remembered.
* `Expander.Folded` is the invariant of the memory, which `Expander.foldedRule` shows of every run.
  Where it holds, comparing paths is plain equality (`Expander.Folded.find?_eq`,
  `Expander.ComparesFolded.same_iff`).
* `Expander.paths_folded` is the main result: where references lead, and that an expansion compares
  folded paths only.
-/

set_option autoImplicit false

namespace Templating
namespace Expander

/-! ## Where a run comes to

`ComesTo` follows a run through the tags: it goes on behind a tag only if that tag was expanded, and
into a file only if that file is not known and not in progress, and was accepted.  So it says at which
tags paths are compared, and with what. -/

/-- A run through some tags of `file` comes to a tag: to the first one, to a later one once the first
is expanded, or to one of a file that the first one names. -/
inductive ComesTo (s : Surroundings) (stack' : List Path) (tag' : IncludeTag) (y : Expander) :
    List Path → SourceFile → List IncludeTag → Expander → Prop
  | here {file : SourceFile} {tags : List IncludeTag} :
      ComesTo s stack' tag' y stack' file (tag' :: tags) y
  | later {stack : List Path} {file : SourceFile} {tag : IncludeTag} {tags : List IncludeTag}
      {x x' : Expander} {d : Document} (hrun : expandTag s stack file tag x = (.ok d, x'))
      (h : ComesTo s stack' tag' y stack file tags x') :
      ComesTo s stack' tag' y stack file (tag :: tags) x
  | inner {stack : List Path} {file : SourceFile} {tag : IncludeTag} {tags : List IncludeTag}
      {x : Expander} {text : Text} {encoding : TextEncoding} {o : Outline}
      (hx : x.find? tag.target = none) (hs : ∀ q ∈ stack, ¬ Path.Same q tag.target)
      (hread : s.files.readText tag.target none = .ok (text, encoding))
      (ho : Outline.ofText s.running tag.target text = .ok o)
      (h : ComesTo s stack' tag' y (stack ++ [tag.target]) o.file o.tags (x.note tag.target)) :
      ComesTo s stack' tag' y stack file (tag :: tags) x

/-! ## The invariant

Paths come into the memory from tags, whose targets are folded, and from the path of the template, which
is folded because it is absolute.  Nothing else is ever put there. -/

/-- Files are remembered, and have been read, under folded paths. -/
structure Folded (x : Expander) : Prop where
  known : ∀ entry ∈ x.known, entry.1.Folded
  reads : ∀ p ∈ x.reads, p.Folded

variable {s : Surroundings} {x : Expander} {p : Path}

/-- A file is noted under its folded path. -/
theorem Folded.note (h : x.Folded) (hp : p.Folded) : (x.note p).Folded where
  known := h.known
  reads q hq := by
    rcases List.mem_append.1 hq with hq | hq
    · exact h.reads q hq
    · rwa [List.mem_singleton.1 hq]

/-- And it is remembered under the same one. -/
theorem Folded.remember (h : x.Folded) (hp : p.Folded) (d : Document) : (x.remember p d).Folded where
  known entry hentry := by
    rcases List.mem_cons.1 hentry with rfl | hentry
    · exact hp
    · exact h.known entry hentry
  reads := h.reads

/-- A new expander has only the path that it starts with. -/
theorem Folded.start (hp : p.Folded) : Folded { reads := [p] } where
  known := by simp
  reads := by simpa using hp

/-- In a folded memory a folded path is looked up as it is spelled. -/
theorem Folded.find?_eq (h : x.Folded) (hp : p.Folded) :
    x.find? p = (x.known.find? fun entry => entry.1 = p).map Prod.snd := by
  rw [find?]
  refine congrArg (Option.map Prod.snd) ?_
  obtain ⟨known, reads⟩ := x
  induction known with
  | nil => rfl
  | cons entry known ih =>
    have hentry : entry.1.Folded := h.known entry (List.mem_cons_self ..)
    have hrest : Folded ⟨known, reads⟩ :=
      ⟨fun e he => h.known e (List.mem_cons_of_mem _ he), h.reads⟩
    rw [List.find?_cons, List.find?_cons, decide_eq_decide.2 (hentry.same_iff hp), ih hrest]

/-- Every run keeps the memory folded. -/
theorem foldedRule (s : Surroundings) :
    Rule s (fun _ _ tag x _ x' => tag.target.Folded → x.Folded → x'.Folded)
      (fun _ _ _ tags x _ x' => (∀ tag ∈ tags, tag.target.Folded) → x.Folded → x'.Folded) where
  known _ := fun _ hx => hx
  cyclic _ _ := fun _ hx => hx
  missing _ _ _ := fun _ hx => hx
  unreadable _ _ _ _ := fun htarget hx => hx.note htarget
  refused _ _ _ _ _ := fun htarget hx => hx.note htarget
  failed _ _ _ _ ho _ ih := fun htarget hx => ih (folded_of_ofText ho) (hx.note htarget)
  expanded _ _ _ _ ho _ ih := fun htarget hx =>
    (ih (folded_of_ofText ho) (hx.note htarget)).remember htarget _
  nil := fun _ hx => hx
  stopped _ ih := fun htags hx => ih (htags _ (List.mem_cons_self ..)) hx
  stoppedLater _ ih _ ihlater := fun htags hx =>
    ihlater (fun tag htag => htags tag (List.mem_cons_of_mem _ htag))
      (ih (htags _ (List.mem_cons_self ..)) hx)
  cons _ ih _ ihlater := fun htags hx =>
    ihlater (fun tag htag => htags tag (List.mem_cons_of_mem _ htag))
      (ih (htags _ (List.mem_cons_self ..)) hx)

/-- What a run compares at a tag: the file that the tag names, the files in progress and those that
are remembered. -/
structure ComparesFolded (stack : List Path) (tag : IncludeTag) (x : Expander) : Prop where
  target : tag.target.Folded
  stack : ∀ q ∈ stack, q.Folded
  memory : x.Folded

/-- A tag closes a cycle just if it names a file in progress by its own spelling. -/
theorem ComparesFolded.same_iff {stack : List Path} {tag : IncludeTag} (h : ComparesFolded stack tag x) :
    (∃ q ∈ stack, Path.Same q tag.target) ↔ tag.target ∈ stack := by
  constructor
  · rintro ⟨q, hq, hsame⟩
    rwa [← (h.stack q hq).eq_of_same h.target hsame]
  · exact fun hmem => ⟨_, hmem, Path.Same.refl _⟩

/-- Wherever a run comes to, it compares folded paths. -/
theorem ComesTo.folded {stack stack' : List Path} {file : SourceFile} {tags : List IncludeTag}
    {tag' : IncludeTag} {y : Expander} (h : ComesTo s stack' tag' y stack file tags x)
    (htags : ∀ tag ∈ tags, tag.target.Folded) (hstack : ∀ q ∈ stack, q.Folded) (hx : x.Folded) :
    ComparesFolded stack' tag' y := by
  induction h with
  | here => exact ⟨htags _ (List.mem_cons_self ..), hstack, hx⟩
  | @later stack file tag tags x x' d hrun _ ih =>
    have hx' := (foldedRule s).tag stack file tag x (htags _ (List.mem_cons_self ..)) hx
    rw [hrun] at hx'
    exact ih (fun tag htag => htags tag (List.mem_cons_of_mem _ htag)) hstack hx'
  | @inner stack file tag tags x text encoding o _ _ _ ho _ ih =>
    have htarget := htags tag (List.mem_cons_self ..)
    refine ih (folded_of_ofText ho) (fun q hq => ?_) (hx.note htarget)
    rcases List.mem_append.1 hq with hq | hq
    · exact hstack q hq
    · rwa [List.mem_singleton.1 hq]

/-- The expansion of a file comes to a tag, of the file itself or of one that is included. -/
def Compares (s : Surroundings) (path : Path) (text : Text) (x : Expander) (stack : List Path)
    (tag : IncludeTag) (y : Expander) : Prop :=
  ∃ o, Outline.ofText s.running path text = .ok o ∧ ComesTo s stack tag y [path] o.file o.tags x

/-- Expanding a file keeps the memory folded. -/
theorem expand_folded (s : Surroundings) (text : Text) (hx : x.Folded) :
    (expand s p text x).2.Folded := by
  rw [expand]
  cases ho : Outline.ofText s.running p text with
  | error e => exact hx
  | ok o =>
    have hrun := (foldedRule s).tags [p] o.file o.start o.tags x (folded_of_ofText ho) hx
    dsimp only
    generalize expandTags s [p] o.file o.start o.tags x = r at hrun ⊢
    obtain ⟨_ | pieces, x'⟩ := r
    · exact hrun
    · exact hrun

/-- **References lead where their components do, and an expansion compares folded paths only.**  A
path has one absolute form, from wherever it is taken again.  If the path of a file is folded, and so
are the paths that are remembered, this holds at every tag that the expansion of the file comes to and
of what is remembered after it. -/
theorem paths_folded {cwd path : Path} (hcwd : cwd.isAbsolute = true) (hpath : path.text ≠ [])
    (hp : p.Folded) (hx : x.Folded) (including reference : Path) (s : Surroundings) (text : Text) :
    Path.Resolves including reference ∧ path.fold.fold = path.fold ∧
      (∃ q, path.absolute? cwd = some q ∧ q.Folded ∧ q.isAbsolute = true ∧
        ∀ cwd', q.absolute? cwd' = some q) ∧
      (∀ stack tag y, Compares s p text x stack tag y → ComparesFolded stack tag y) ∧
      (expand s p text x).2.Folded := by
  refine ⟨Path.resolves including reference, path.fold_fold, ?_, ?_, expand_folded s text hx⟩
  · obtain ⟨q, hq, habsolute, hagain⟩ := Path.absolute?_of_absolute? hpath hcwd
    exact ⟨q, hq, Path.folded_absolute hq, habsolute, hagain⟩
  · rintro stack tag y ⟨o, ho, h⟩
    exact h.folded (folded_of_ofText ho) (by simpa using hp) hx

/-- A file that leads up from its directory to another one and then to itself. -/
theorem paths_folded_up_and_down :
    let cwd : Path := .ofString "/work"
    let path : Path := .ofString "views//./page"
    let page : Path := .ofString "/work/views/page"
    let text := "<%@include file=\".././/../work/page\"%><%@include file=\"../views/page\"%>".toList
    let s : Surroundings := ⟨.ofTexts [(.ofString "/work/page", [])], ⟨1, 0, 10, [], []⟩⟩
    cwd.isAbsolute = true ∧ path.text ≠ [] ∧ page.Folded ∧ path.absolute? cwd = some page ∧
      (Path.resolve page (.ofString ".././/../work/page")).components
        = [.root, .name "work".toList, .name "page".toList] ∧
      ∃ tag y, Compares s page text { reads := [page] } [page] tag y ∧ tag.target = page ∧
        y.reads.length = 2 ∧ ComparesFolded [page] tag y := by
  intro cwd path page text s
  let file : SourceFile := ⟨page, text⟩
  let up : IncludeTag := ⟨⟨0, 38⟩, ".././/../work/page".toList, .ofString "/work/page"⟩
  let down : IncludeTag := ⟨⟨38, 71⟩, "../views/page".toList, page⟩
  have hcwd : cwd.isAbsolute = true := by decide
  have hpath : path.text ≠ [] := by decide
  have habsolute : path.absolute? cwd = some page := by decide +kernel
  have hpage : page.Folded := Path.folded_absolute habsolute
  have ho : Outline.ofText s.running page text = .ok ⟨file, 0, [up, down]⟩ := by decide +kernel
  -- One more file can be in progress beside the page.
  have hfresh : s.files.fresh [page] ≤ 1 := by decide +kernel
  have hbudget := (budgetRule s).tag [page] file up { reads := [page] } 1 hfresh
  have hup : ((expandTagWithin s 1 [page] file up { reads := [page] }).any fun r =>
      r.1.isOk && r.2.reads.length == 2) = true := by decide +kernel
  rw [hbudget, Option.any_some, Bool.and_eq_true, beq_iff_eq] at hup
  generalize hrun : expandTag s [page] file up { reads := [page] } = r at hup
  obtain ⟨_ | d, y⟩ := r
  · exact absurd hup.1 Bool.false_ne_true
  · have hcompares : Compares s page text { reads := [page] } [page] down y :=
      ⟨_, ho, .later hrun .here⟩
    obtain ⟨hresolves, -, -, hfolded, -⟩ := paths_folded hcwd hpath hpage (.start hpage) page
      (.ofString ".././/../work/page") s text
    -- Two steps up from the directory of the page, and two down again.
    have htrail : Path.trail page (.ofString ".././/../work/page")
        = [.root] ++ [.name "work".toList] ++ [.name "views".toList] ++ [.up] ++ [.up]
          ++ [.name "work".toList] ++ [.name "page".toList] := by decide +kernel
    have hway : Component.Folds (Path.trail page (.ofString ".././/../work/page"))
        ([.root] ++ [.name "work".toList] ++ [.name "page".toList]) := by
      rw [htrail]
      exact .name (.name (.back (.back (.name (.name .root)))))
    exact ⟨hcwd, hpath, hpage, habsolute, (hresolves.follows _).1 hway, down, y, hcompares, rfl, hup.2,
      hfolded _ _ _ hcompares⟩

end Expander
end Templating
