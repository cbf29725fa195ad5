import Templating.Error.Basic

/-!
# Diagnostics

A diagnostic is an error made ready for display: the words of its root cause, and labels on the
texts it is about.  `BuildError.diagnostic` labels the place of the root cause first and then every
include tag on the way to it, from the inside out.
-/

set_option autoImplicit false

namespace Templating

/-- How much a label stands out. -/
inductive LabelStyle where
  /-- The place an error is about. -/
  | primary
  /-- A place that helps to understand it. -/
  | secondary
  deriving DecidableEq, Repr

/-- A mark on part of a file; `α` names files. -/
structure Label (α : Type) where
  style : LabelStyle
  file : α
  span : Span
  message : String
  deriving DecidableEq, Repr

/-- An error made ready for display. -/
structure Diagnostic (α : Type) where
  message : String
  labels : List (Label α)
  notes : List String
  deriving DecidableEq, Repr

namespace BuildError

/-- The label on the place of an error, if it has one in a known file. -/
def primaryLabel? {α : Type} (file : Path → Option α) (e : BuildError) : Option (Label α) := do
  let location ← e.location?
  let id ← file location.path
  return ⟨.primary, id, location.span, ""⟩

/-- The label on an include tag, if it is in a known file. -/
def siteLabel? {α : Type} (file : Path → Option α) (site : Location) : Option (Label α) :=
  (file site.path).map (⟨.secondary, ·, site.span, "included from here"⟩)

/-- An error made ready for display; `file` names the files that can be shown. -/
def diagnostic {α : Type} (file : Path → Option α) (e : BuildError) : Diagnostic α where
  message := e.rootCause.message
  labels := (e.rootCause.primaryLabel? file).toList ++ e.includeChain.reverse.filterMap (siteLabel? file)
  notes := e.rootCause.cause?.toList.map fun cause => s!"caused by: {cause}"

end BuildError
end Templating
