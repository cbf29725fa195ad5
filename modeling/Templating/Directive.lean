import Templating.Document
import Templating.Text.Blank

/-!
# The version directive

A template may begin with a comment line, `// dswift-tools-version:1.2` or the same behind `#`, that
names the oldest tool that can process it.

## What is here

* `Directive.find?` reads the directive of a document.
* `Directive.checkTools` refuses a tool that is too old, `Directive.checkFeature` a directive that is
  older than a feature the template uses.
-/

set_option autoImplicit false

namespace Templating

/-- The version directive of a template. -/
structure Directive where
  version : Version
  /-- Its line, line break included. -/
  span : Span
  deriving DecidableEq, Repr

namespace Directive

/-- What follows the comment marker in a text that starts with one. -/
def afterMarker? (t : Text) : Option Text :=
  (Text.after? ['/', '/'] t).or (Text.after? ['#'] t)

/-- The name of the directive with its colon. -/
def keyword : Text := "dswift-tools-version:".toList

/-- What follows the name of the directive in a text that starts with one. -/
def value? (t : Text) : Option Text := do
  let rest ← afterMarker? t
  Text.after? keyword (rest.dropWhile fun c => c = ' ' || c = '\t')

/-- The directive a document starts with, if it does. -/
def find? (d : Document) : Except BuildError (Option Directive) :=
  match value? d.text with
  | none => .ok none
  | some value =>
    let line : Text := value.takeWhile (· ≠ '\n')
    let start := d.size - value.size
    let stop := start + line.size
    match Version.parseTools (Text.trim line) with
    | .ok version => .ok (some ⟨version, ⟨0, min (stop + 1) d.size⟩⟩)
    | .error cause =>
      let first := start + Text.size (line.takeWhile Text.isBlank)
      let span : Span := ⟨first, first + (Text.trim line).size⟩
      .error (.invalidToolsVersionNumber (Text.trim line) cause (d.locate span))

/-- Fails if the running tool is older than a directive asks for. -/
def checkTools (d : Document) (running : Version) : Option Directive → Except BuildError Unit
  | none => .ok ()
  | some directive =>
    if running.older directive.version then
      .error (.minimumToolsVersionNotMet directive.version running none (d.locate directive.span))
    else .ok ()

/-- Fails if a directive names a version that is too old for a feature. -/
def checkFeature (d : Document) (minimum : Version) (feature : String) :
    Option Directive → Except BuildError Unit
  | none => .ok ()
  | some directive =>
    if directive.version.older minimum then
      .error (.minimumToolsVersionNotMet minimum directive.version (some feature)
        (d.locate directive.span))
    else .ok ()

/-- Where the text of a template begins: after the directive, if there is one. -/
def bodyStart : Option Directive → Nat
  | none => 0
  | some directive => directive.span.stop

end Directive
end Templating
