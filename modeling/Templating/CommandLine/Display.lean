import Templating.Document
import Templating.Error.Diagnostic
import Templating.FileSystem

/-!
# Errors for display

An error is shown together with the texts that it is about.  They are read once more for that, in the
encoding that each file tells of itself.

* `shown?` is the text of a file as it is shown, `display` an error with labels on such texts.
-/

set_option autoImplicit false

namespace Templating
namespace CommandLine

/-- A file as it is shown, if it can be read. -/
def shown? (files : FileSystem) (p : Path) : Option SourceFile :=
  match files.readText p none with
  | .error _ => none
  | .ok (text, _) => some ⟨p, text⟩

/-- An error with labels on the files as they are shown. -/
def display (files : FileSystem) (e : BuildError) : Diagnostic SourceFile := e.diagnostic (shown? files)

end CommandLine
end Templating
