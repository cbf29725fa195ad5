import Templating.Document
import Templating.Error.Diagnostic

/-!
# Errors inside errors

An error in an included file stands inside one wrapper for each include tag on the way to the file.  It
is looked at in four ways: for the tags on the way, from the outside in; for the error inside all
wrappers; in words, with all that is inside; and as a diagnostic, with labels from the inside out.
All of them are said here of the error as it was put together.

## What is here

* `BuildError.Nested` relates an error to the tags of its wrappers and to what is inside of them;
  `BuildError.exists_nested` takes any error apart, and `BuildError.nested_errorAt` is how a document puts
  one together.
* `BuildError.Labelled` are the labels that such an error has.
* `BuildError.nested_views` is the main result.
-/

set_option autoImplicit false

namespace Templating

/-- The words of the wrapper for an include tag. -/
def IncludeSite.message (site : IncludeSite) : String :=
  s!"failed to include '{String.ofList site.includePath}' at {site.location}"

namespace BuildError

/-! ## Wrappers

Wrappers are put around an error one at a time, the outermost one last.  The list of their tags begins
with that one, as a reader meets it first. -/

theorem message_wrapper (site : IncludeSite) (source : BuildError) :
    (failedToIncludeFile site.includePath site.location source).message = site.message := rfl

/-- An error that stands for one in an included file. -/
def IsWrapper (e : BuildError) : Prop :=
  ∃ includePath l source, e = .failedToIncludeFile includePath l source

/-- An error is another one inside a wrapper for each of some include tags, the first one outermost. -/
inductive Nested : List IncludeSite → BuildError → BuildError → Prop
  | root (e : BuildError) : Nested [] e e
  | wrapped {sites : List IncludeSite} {root e : BuildError} (site : IncludeSite)
      (h : Nested sites root e) :
      Nested (site :: sites) root (.failedToIncludeFile site.includePath site.location e)

variable {sites : List IncludeSite} {root e : BuildError}

/-- Every error can be taken apart until there is no wrapper left. -/
theorem exists_nested (e : BuildError) : ∃ sites root, ¬ root.IsWrapper ∧ Nested sites root e := by
  induction e with
  | failedToIncludeFile includePath l source ih =>
    obtain ⟨sites, root, hroot, h⟩ := ih
    exact ⟨⟨includePath, l⟩ :: sites, root, hroot, .wrapped ⟨includePath, l⟩ h⟩
  | _ => exact ⟨[], _, by rintro ⟨_, _, _, ⟨⟩⟩, .root _⟩

/-- A document puts on wrappers for some tags. -/
theorem nested_wrap (sites : List IncludeSite) (root : BuildError) :
    Nested sites root (Document.wrap sites root) := by
  induction sites with
  | nil => exact .root root
  | cons site sites ih => exact .wrapped site ih

/-- A document wraps an error once for each include tag that the text at its start came through. -/
theorem nested_errorAt (d : Document) (span : Span) (error : Location → BuildError) :
    Nested (d.sites span.start) (error (d.locate span)) (d.errorAt span error) :=
  nested_wrap _ _

/-! ## From the outside in

The chain and the cause are recursive in the error, so each is an induction over the wrappers. -/

/-- An error that is no wrapper is its own cause. -/
theorem rootCause_of_not_isWrapper (h : ¬ e.IsWrapper) : e.rootCause = e := by
  cases e with
  | failedToIncludeFile includePath l source => exact absurd ⟨includePath, l, source, rfl⟩ h
  | _ => rfl

/-- And it has no chain. -/
theorem includeChain_of_not_isWrapper (h : ¬ e.IsWrapper) : e.includeChain = [] := by
  cases e with
  | failedToIncludeFile includePath l source => exact absurd ⟨includePath, l, source, rfl⟩ h
  | _ => rfl

/-- Wrappers do not change the cause. -/
theorem Nested.rootCause_eq (h : Nested sites root e) : e.rootCause = root.rootCause := by
  induction h with
  | root e => rfl
  | wrapped site _ ih => exact ih

/-- Each wrapper adds its tag to the chain. -/
theorem Nested.includeChain_eq (h : Nested sites root e) :
    e.includeChain = sites.map IncludeSite.location ++ root.includeChain := by
  induction h with
  | root e => rfl
  | wrapped site _ ih => exact congrArg (site.location :: ·) ih

/-! ## In words

The words of a cause come behind a colon, and of a wrapper the cause is what is inside. -/

/-- An error that is no wrapper has a message, and perhaps a cause. -/
theorem describe_of_not_isWrapper (h : ¬ e.IsWrapper) :
    e.describe = ": ".intercalate (e.message :: e.cause?.toList) := by
  have hwords : e.describe = e.cause?.elim e.message (e.message ++ ": " ++ ·) := by
    cases e with
    | failedToIncludeFile includePath l source => exact absurd ⟨includePath, l, source, rfl⟩ h
    | _ => rfl
  rw [hwords]
  cases e.cause? with
  | none => simp
  | some cause => simp

/-- The words of an error are those of its wrappers, outermost first, of what is inside and of the cause
of that. -/
theorem Nested.describe_eq (h : Nested sites root e) (hroot : ¬ root.IsWrapper) :
    e.describe
      = ": ".intercalate (sites.map IncludeSite.message ++ root.message :: root.cause?.toList) := by
  induction h with
  | root e => exact describe_of_not_isWrapper hroot
  | @wrapped sites root e site _ ih =>
    have hstep : (failedToIncludeFile site.includePath site.location e).describe
        = (failedToIncludeFile site.includePath site.location e).message ++ ": " ++ e.describe := rfl
    rw [hstep, message_wrapper, ih hroot, List.map_cons, List.cons_append,
      String.intercalate_cons_of_ne_nil (by simp)]

/-! ## From the inside out

A reader of a diagnostic is shown the place of the error first, and then the tags back to the template.
A place in a file that is not known cannot be shown. -/

/-- The labels of an error: one for the place of what is inside, if it has a place in a known file, and
behind it one for each tag that is in a known file, the tag of the outermost wrapper last. -/
inductive Labelled {α : Type} (file : Path → Option α) (root : BuildError) :
    List IncludeSite → List (Label α) → Prop
  | unplaced (h : root.location? = none) : Labelled file root [] []
  | hidden {l : Location} (h : root.location? = some l) (hfile : file l.path = none) :
      Labelled file root [] []
  | placed {l : Location} {id : α} (h : root.location? = some l) (hfile : file l.path = some id) :
      Labelled file root [] [⟨.primary, id, l.span, ""⟩]
  | hiddenSite {site : IncludeSite} {sites : List IncludeSite} {labels : List (Label α)}
      (hfile : file site.location.path = none) (h : Labelled file root sites labels) :
      Labelled file root (site :: sites) labels
  | site {site : IncludeSite} {sites : List IncludeSite} {labels : List (Label α)} {id : α}
      (hfile : file site.location.path = some id) (h : Labelled file root sites labels) :
      Labelled file root (site :: sites)
        (labels ++ [⟨.secondary, id, site.location.span, "included from here"⟩])

variable {α : Type} {file : Path → Option α}

/-- What is inside all wrappers has the first label. -/
theorem labelled_primaryLabel? (root : BuildError) :
    Labelled file root [] (root.primaryLabel? file).toList := by
  rw [primaryLabel?]
  cases hlocation : root.location? with
  | none => exact .unplaced hlocation
  | some l =>
    cases hfile : file l.path with
    | none => simpa [hfile] using Labelled.hidden hlocation hfile
    | some id => simpa [hfile] using Labelled.placed hlocation hfile

/-- The labels of a nested error. -/
theorem Nested.labelled (h : Nested sites root e) (hroot : ¬ root.IsWrapper) :
    Labelled file root sites (e.diagnostic file).labels := by
  rw [diagnostic, h.rootCause_eq, h.includeChain_eq, rootCause_of_not_isWrapper hroot,
    includeChain_of_not_isWrapper hroot, List.append_nil]
  clear h
  induction sites with
  | nil => simpa using labelled_primaryLabel? root
  | cons site sites ih =>
    rw [List.map_cons, List.reverse_cons, List.filterMap_append, ← List.append_assoc]
    cases hfile : file site.location.path with
    | none => simpa [siteLabel?, hfile] using Labelled.hiddenSite hfile ih
    | some id => simpa [siteLabel?, hfile] using Labelled.site hfile ih

/-! ## All together

`Views` collects what the four ways of looking at an error show, for any way of finding files. -/

/-- What there is to see of an error that is `root` inside the wrappers for some include tags. -/
structure Views (sites : List IncludeSite) (root e : BuildError) : Prop where
  chain : e.includeChain = sites.map IncludeSite.location
  length : e.includeChain.length = sites.length
  rootCause : e.rootCause = root
  words : e.describe
    = ": ".intercalate (sites.map IncludeSite.message ++ root.message :: root.cause?.toList)
  message {α : Type} (file : Path → Option α) : (e.diagnostic file).message = root.message
  labels {α : Type} (file : Path → Option α) : Labelled file root sites (e.diagnostic file).labels
  notes {α : Type} (file : Path → Option α) :
    (e.diagnostic file).notes = root.cause?.toList.map ("caused by: " ++ ·)

/-- A nested error is seen in this way. -/
theorem Nested.views (h : Nested sites root e) (hroot : ¬ root.IsWrapper) : Views sites root e := by
  have hchain : e.includeChain = sites.map IncludeSite.location := by
    rw [h.includeChain_eq, includeChain_of_not_isWrapper hroot, List.append_nil]
  have hinside : e.rootCause = root := h.rootCause_eq.trans (rootCause_of_not_isWrapper hroot)
  exact
    { chain := hchain
      length := by rw [hchain, List.length_map]
      rootCause := hinside
      words := h.describe_eq hroot
      message := fun file => by rw [diagnostic, hinside]
      labels := fun file => h.labelled hroot
      notes := fun file => by rw [diagnostic, hinside]; rfl }

/-- **All that is seen of an error goes back to how it was put together.**  Every error is one inside of
some wrappers; the chain, the words and the labels of the whole have one entry for each of them, in order.
A document puts a wrapper around an error for each tag that the text came through. -/
theorem nested_views :
    (∀ e : BuildError, ∃ sites root, ¬ root.IsWrapper ∧ Nested sites root e) ∧
    (∀ (d : Document) (span : Span) (error : Location → BuildError),
      Nested (d.sites span.start) (error (d.locate span)) (d.errorAt span error) ∧
        (d.errorAt span error).includeChain
          = (d.sites span.start).map IncludeSite.location ++ (error (d.locate span)).includeChain ∧
        (¬ (error (d.locate span)).IsWrapper →
          (d.errorAt span error).includeChain = (d.sites span.start).map IncludeSite.location ∧
          (d.errorAt span error).rootCause = error (d.locate span))) ∧
      ∀ sites root e, ¬ IsWrapper root → Nested sites root e → Views sites root e := by
  refine ⟨exists_nested, fun d span error => ⟨nested_errorAt d span error,
    (nested_errorAt d span error).includeChain_eq, fun hroot => ?_⟩,
    fun sites root e hroot h => h.views hroot⟩
  have hviews := (nested_errorAt d span error).views hroot
  exact ⟨hviews.chain, hviews.rootCause⟩

/-- A file that cannot be read, two tags away from the template, of which only the template is known. -/
theorem nested_views_unreadable :
    let template : Path := .ofString "/a"
    let sites : List IncludeSite :=
      [⟨['b'], ⟨template, 1, ⟨0, 9⟩⟩⟩, ⟨['c'], ⟨.ofString "/b", 2, ⟨3, 12⟩⟩⟩]
    let root : BuildError := .io .read (.ofString "/c") ⟨.permissionDenied, "unreadable"⟩
    let d : Document := ⟨⟨template, []⟩, [⟨['x'], ⟨.ofString "/c", ['x']⟩, ⟨0, 1⟩, false, sites⟩]⟩
    let e := d.errorAt ⟨0, 1⟩ fun _ => root
    e.includeChain = [⟨template, 1, ⟨0, 9⟩⟩, ⟨.ofString "/b", 2, ⟨3, 12⟩⟩] ∧ e.rootCause = root ∧
      e.describe = ": ".intercalate ["failed to include 'b' at /a:1", "failed to include 'c' at /b:2",
        "failed to read '/c'", "unreadable"] ∧
      e.diagnostic (fun p => if p = template then some 7 else none) =
        ⟨"failed to read '/c'", [⟨.secondary, 7, ⟨0, 9⟩, "included from here"⟩],
          ["caused by: unreadable"]⟩ ∧
      Views sites root e := by
  intro template sites root d e
  have hroot : ¬ root.IsWrapper := fun ⟨_, _, _, h⟩ => nomatch h
  obtain ⟨-, herrorAt, hviews⟩ := nested_views
  obtain ⟨hnested, -, hseen⟩ := herrorAt d ⟨0, 1⟩ fun _ => root
  obtain ⟨hchain, hinside⟩ := hseen hroot
  exact ⟨hchain, hinside, by decide +kernel, by decide +kernel, hviews sites root e hroot hnested⟩

end BuildError
end Templating
