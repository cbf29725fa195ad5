import Templating.Text.Basic

/-!
# Paths

A path keeps the text it was written with, since that text is what messages show.  Two spellings
name the same place when their components agree: repeated and trailing slashes do not count, and
neither does a `.` anywhere but at the front of a relative path.

## What is here

* `Path.components` reads the components off a path; `Path.Same` compares two paths by them.
* `Path.join`, `Path.parent?`, `Path.fileName?` and `Path.extension?` take paths apart and together.
* `Path.relativeTo?` is the rest of a path below another one.
* `Path.order` sorts paths component by component.
-/

set_option autoImplicit false

namespace Templating

/-- A path as it was written. -/
structure Path where
  text : Text
  deriving DecidableEq, Repr, Inhabited

/-- One step of a path. -/
inductive Component where
  /-- The root directory, in front of an absolute path. -/
  | root
  /-- The directory itself, `.`. -/
  | here
  /-- The directory above, `..`. -/
  | up
  /-- The entry of a directory with this name. -/
  | name (text : Text)
  deriving DecidableEq, Repr

namespace Component

/-- The text of a component; the root is the empty text in front of the first slash. -/
def text : Component → Text
  | root => []
  | here => ['.']
  | up => ['.', '.']
  | name n => n

/-- The component a segment after the first one spells, if it is one. -/
def ofSegment? (segment : Text) : Option Component :=
  if segment = [] ∨ segment = ['.'] then none
  else if segment = ['.', '.'] then some up
  else some (name segment)

/-- The place of a component in the order of paths. -/
def rank : Component → List Nat
  | root => [0]
  | here => [1]
  | up => [2]
  | name n => 3 :: n.map Char.toNat

end Component

namespace Path

/-! ## Components -/

/-- A path from a string. -/
def ofString (s : String) : Path := ⟨s.toList⟩

/-- The text of a path as a string. -/
def display (p : Path) : String := String.ofList p.text

instance : ToString Path := ⟨display⟩

/-- The parts of a path between slashes. -/
def segments (p : Path) : List Text := p.text.splitOn '/'

/-- The segments of a path, each beside the component it spells. -/
def spelled (p : Path) : List (Option Component × Text) :=
  let inner (s : Text) := (Component.ofSegment? s, s)
  match p.text with
  | [] => []
  | '/' :: rest => (some .root, []) :: (rest.splitOn '/').map inner
  | _ :: _ =>
    match p.segments with
    | ['.'] :: rest => (some .here, ['.']) :: rest.map inner
    | segments => segments.map inner

/-- The components of a path. -/
def components (p : Path) : List Component := p.spelled.filterMap Prod.fst

/-- Whether a path starts at the root. -/
def isAbsolute (p : Path) : Bool := p.text.head? = some '/'

/-- Two paths are the same place when they have the same components. -/
def Same (p q : Path) : Prop := p.components = q.components

instance (p q : Path) : Decidable (Same p q) := inferInstanceAs (Decidable (_ = _))

theorem Same.refl (p : Path) : Same p p := rfl

theorem Same.symm {p q : Path} (h : Same p q) : Same q p := Eq.symm h

theorem Same.trans {p q r : Path} (h : Same p q) (h' : Same q r) : Same p r := Eq.trans h h'

/-- The path with given components, each but the root written once, with single slashes between. -/
def ofComponents (cs : List Component) : Path :=
  if cs = [.root] then ⟨['/']⟩ else ⟨['/'].intercalate (cs.map Component.text)⟩

/-! ## Taking paths apart and together -/

/-- The path with given spelled segments, without segments at its end that spell nothing. -/
def ofSpelled (parts : List (Option Component × Text)) : Path :=
  let kept := (parts.reverse.dropWhile (·.1.isNone)).reverse
  if kept.map Prod.fst = [some .root] then ⟨['/']⟩ else ⟨['/'].intercalate (kept.map Prod.snd)⟩

/-- The directory that holds the last component; the root and the empty path have none. -/
def parent? (p : Path) : Option Path :=
  match (p.spelled.reverse.dropWhile (·.1.isNone)) with
  | [] => none
  | (some .root, _) :: _ => none
  | _ :: front => some (ofSpelled front.reverse)

/-- The place a reference names from a directory; an absolute reference stands for itself. -/
def join (base reference : Path) : Path :=
  if reference.isAbsolute ∨ base.text = [] then reference
  else if base.text.getLast? = some '/' then ⟨base.text ++ reference.text⟩
  else ⟨base.text ++ '/' :: reference.text⟩

/-- The name of what a path leads to, if its last component is a name. -/
def fileName? (p : Path) : Option Text :=
  match p.components.getLast? with
  | some (.name n) => some n
  | _ => none

/-- What follows the last dot of the file name; a dot in front of everything else does not count. -/
def extension? (p : Path) : Option Text :=
  match p.fileName? with
  | none => none
  | some n =>
    let (tail, rest) := n.reverse.span (· ≠ '.')
    match rest with
    | [] | ['.'] => none
    | _ :: _ => some tail.reverse

/-- The segments that are left once the components of another path are matched. -/
def unmatched : List Component → List (Option Component × Text) →
    Option (List (Option Component × Text))
  | [], parts => some parts
  | _ :: _, [] => none
  | c :: cs, (none, _) :: parts => unmatched (c :: cs) parts
  | c :: cs, (some d, _) :: parts => if c = d then unmatched cs parts else none

/-- The rest of a path below `base`, spelled as it was, if it is at or below `base`. -/
def relativeTo? (p base : Path) : Option Path :=
  (unmatched base.components p.spelled).map fun parts =>
    ofSpelled (parts.dropWhile (·.1.isNone))

/-! ## Order -/

/-- Paths in order, component by component. -/
def order (p q : Path) : Ordering :=
  compare (p.components.map Component.rank) (q.components.map Component.rank)

end Path
end Templating
