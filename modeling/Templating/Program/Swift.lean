import Templating.Program.Plan
import Templating.Text.Quoted

/-!
# Swift source text

## What is here

* `Swift.escape` writes a text so that it can stand in a Swift string literal.
* `Swift.program` lists the lines of the program of a plan: a fixed beginning, the declarations, a
  method with a chunk of lines for each statement, and a fixed end.
-/

set_option autoImplicit false

namespace Templating
namespace Swift

/-! ## String literals -/

/-- A character in a string literal. -/
def escapeChar (c : Char) : Text :=
  if c = '\\' then ['\\', '\\']
  else if c = '"' then ['\\', '"']
  else if c = '\n' then ['\\', 'n']
  else if c = '\r' then ['\\', 'r']
  else if c = '\t' then ['\\', 't']
  else if Text.isControl c then ['\\', 'u', '\x7b'] ++ Text.hex c.toNat ++ ['\x7d']
  else [c]

/-- A text in a string literal. -/
def escape (t : Text) : Text := t.flatMap escapeChar

/-! ## Lines -/

/-- A line at an indentation level; an empty line is not indented. -/
def line (level : Nat) (t : Text) : Text := if t = [] then [] else List.replicate (4 * level) ' ' ++ t

/-- The lines of some code of the template at an indentation level. -/
def code (level : Nat) (content : Text) : List Text :=
  content.lines.map fun l => line level l.chomp

/-- The variable that collects the output. -/
def output : Text := "__dswiftOutput".toList

/-- The lines of a statement. -/
def statement : Statement → List Text
  | .literal t => [line 2 (output ++ " += \"".toList ++ escape t ++ ['"'])]
  | .code t => code 2 t
  | .print e =>
    if '\n' ∈ e then
      [line 2 (output ++ " += String(describing: (".toList)] ++ code 3 e ++ [line 2 "))".toList]
    else [line 2 (output ++ " += \"\\(".toList ++ e ++ ")\"".toList)]

/-- The lines of a declaration, with an empty line behind them. -/
def declaration (content : Text) : List Text := code 1 content ++ [[]]

/-! ## Programs -/

/-- What a program is called and how it writes its output. -/
structure Naming where
  className : Text
  templateName : Text
  encoding : TextEncoding

/-- The lines in front of the declarations. -/
def prologue (n : Naming) : List Text :=
  ["// Generator for '".toList ++ n.templateName
      ++ "'. Run with the destination path as its only argument.".toList,
    "import Foundation".toList,
    [],
    "public class ".toList ++ n.className ++ " \x7b".toList]

/-- The lines between the declarations and the statements. -/
def methodHeader : List Text :=
  [line 1 "public init() \x7b \x7d".toList,
    [],
    line 1 "public func generate() -> String \x7b".toList,
    line 2 ("var ".toList ++ output ++ ": String = \"\"".toList)]

/-- The lines behind the statements. -/
def epilogue (n : Naming) : List Text :=
  [line 2 ("return ".toList ++ output),
    line 1 "\x7d".toList,
    "\x7d".toList,
    [],
    "let __dswiftArguments = CommandLine.arguments".toList,
    "guard __dswiftArguments.count == 2 else \x7b".toList,
    line 1 ("FileHandle.standardError.write(\"usage: \\(__dswiftArguments[0]) <destination>\\n\"".toList
      ++ ".data(using: .utf8)!)".toList),
    line 1 "exit(1)".toList,
    "\x7d".toList,
    "do \x7b".toList,
    line 1 ("try ".toList ++ n.className
      ++ "().generate().write(toFile: __dswiftArguments[1], atomically: true, encoding: ".toList
      ++ n.encoding.swiftName.toList ++ [')']),
    "\x7d catch \x7b".toList,
    line 1 "FileHandle.standardError.write(\"\\(error)\\n\".data(using: .utf8)!)".toList,
    line 1 "exit(1)".toList,
    "\x7d".toList]

/-- The lines of the program of a plan. -/
def program (n : Naming) (p : Plan) : List Text :=
  prologue n ++ p.declarations.flatMap declaration ++ methodHeader ++ p.statements.flatMap statement
    ++ epilogue n

/-- Lines as one text, each with a line break at its end. -/
def unlines (lines : List Text) : Text := lines.flatMap (· ++ ['\n'])

/-- The program of a plan. -/
def render (n : Naming) (p : Plan) : Text := unlines (program n p)

end Swift
end Templating
