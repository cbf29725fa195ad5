import Templating.Fixture.Frontmatter
import Templating.Toml.Basic

/-!
# Fixtures

A fixture is a template together with what is expected of its build.

* `Settings` are the expectations, `Settings.ofEntries?` reads them.
* `Fixture.parse` reads a whole fixture.
-/

set_option autoImplicit false

namespace Templating

/-- What a fixture says about itself and about the build of its template. -/
structure Settings where
  description : Option Text := none
  /-- The version the template is built with, if it is not the running one. -/
  toolsVersion : Option Text := none
  /-- A part of the message of the error that the build must fail with. -/
  error : Option Text := none
  /-- The line the error must be on. -/
  line : Option Nat := none
  /-- Parts of the source of the program. -/
  contains : List Text := []
  /-- What the program must put out when its code does nothing. -/
  text : Option Text := none
  deriving DecidableEq, Repr

namespace Settings

/-- The settings with one more of them given; there is no other key, and no other kind of value for
a key. -/
def set? (s : Settings) (key : String) (value : Toml.Value) : Option Settings :=
  match key, value with
  | "description", .text t => some { s with description := some t }
  | "tools_version", .text t => some { s with toolsVersion := some t }
  | "expect_error", .text t => some { s with error := some t }
  | "expect_line", .number n => if 0 ≤ n then some { s with line := some n.toNat } else none
  | "expect_contains", .texts ts => some { s with contains := ts }
  | "expect_text", .text t => some { s with text := some t }
  | _, _ => none

/-- The settings that some entries give. -/
def ofEntries? (entries : List (Text × Toml.Value)) : Option Settings :=
  entries.foldlM (fun s entry => s.set? (String.ofList entry.1) entry.2) {}

end Settings

/-- A template and what is expected of its build. -/
structure Fixture where
  settings : Settings
  body : Text
  deriving DecidableEq, Repr

/-- Reads a fixture. -/
def Fixture.parse (t : Text) : Except Frontmatter.Error Fixture := do
  let (settings, body) ← Frontmatter.split? t
  match Toml.ofText? settings >>= Settings.ofEntries? with
  | some settings => return ⟨settings, body⟩
  | none => throw .malformed

end Templating
