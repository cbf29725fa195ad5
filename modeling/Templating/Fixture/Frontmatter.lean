import Templating.Text.Read

/-!
# Frontmatter

A fixture begins with its settings, between two lines that start with `---`, and goes on with the text
of a template.

* `Frontmatter.split?` takes the two apart.
* `Frontmatter.Error` says what can be wrong with the settings.
-/

set_option autoImplicit false

namespace Templating
namespace Frontmatter

/-- Why the settings of a fixture cannot be read. -/
inductive Error where
  | missingOpening
  | missingClosing
  /-- The settings are not what they should be. -/
  | malformed
  deriving DecidableEq, Repr

/-- An error in words. -/
def Error.message : Error → String
  | missingOpening => "missing opening --- frontmatter delimiter"
  | missingClosing => "missing closing --- frontmatter delimiter"
  | malformed => "TOML parse error"

/-- The delimiter on either side of the settings. -/
def delimiter : Text := ['-', '-', '-']

/-- A text without the byte-order marks at its front. -/
def dropByteOrderMarks (t : Text) : Text := t.dropWhile (· = '\uFEFF')

/-- A text without the carriage returns at its end. -/
def dropReturns (t : Text) : Text := (t.reverse.dropWhile (· = '\r')).reverse

/-- The settings and what follows the closing delimiter, behind the opening delimiter and its line
break. -/
def close? (t : Text) : Option (Text × Text) :=
  match Text.after? delimiter t with
  | some rest => some ([], rest)
  | none => Text.cut? ('\n' :: delimiter) t

/-- The settings of a fixture and its template, without the line breaks of the delimiters. -/
def split? (t : Text) : Except Error (Text × Text) :=
  match Text.after? delimiter (dropByteOrderMarks t) with
  | none => .error .missingOpening
  | some t =>
    match close? t.dropBreak with
    | none => .error .missingClosing
    | some (settings, rest) => .ok (dropReturns settings, rest.dropBreak)

end Frontmatter
end Templating
