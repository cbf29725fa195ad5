import Templating.Path.Basic

/-!
# Locations

A `Location` is a place in a file as it was read, before anything was included into it.
-/

set_option autoImplicit false

namespace Templating

/-- A place in a template file. -/
structure Location where
  path : Path
  /-- The line it starts on, counted from 1. -/
  line : Nat
  /-- The bytes it covers. -/
  span : Span
  deriving DecidableEq, Repr, Inhabited

namespace Location

instance : ToString Location := ⟨fun l => s!"{l.path}:{l.line}"⟩

end Location
end Templating
