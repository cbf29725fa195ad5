import Templating.Text.Basic

/-!
# Versions

A version is three numbers, a list of pre-release identifiers and a list of build identifiers.

## What is here

* `Version.render` writes a version down.
* `Version.key` is what versions are compared by: numbers first, then the pre-release, where having
  none is highest, then the build metadata, where having none is lowest.
-/

set_option autoImplicit false

namespace Templating

/-- A semantic version. -/
structure Version where
  major : Nat
  minor : Nat
  patch : Nat
  /-- The dot-separated identifiers of the pre-release; a release has none. -/
  pre : List Text := []
  /-- The dot-separated identifiers of the build metadata. -/
  build : List Text := []
  deriving DecidableEq, Repr, Inhabited

namespace Version

/-! ## Writing -/

/-- Identifiers with a dot between each two. -/
def dotted (identifiers : List Text) : Text := ['.'].intercalate identifiers

/-- A version as it is written. -/
def render (v : Version) : Text :=
  Nat.toDigits 10 v.major ++ '.' :: Nat.toDigits 10 v.minor ++ '.' :: Nat.toDigits 10 v.patch
    ++ (if v.pre = [] then [] else '-' :: dotted v.pre)
    ++ (if v.build = [] then [] else '+' :: dotted v.build)

instance : ToString Version := ⟨fun v => String.ofList v.render⟩

/-! ## Order -/

/-- The number a run of decimal digits stands for. -/
def value (digits : Text) : Nat := digits.foldl (fun n d => 10 * n + (d.toNat - '0'.toNat)) 0

/-- The key of an identifier: numbers come first and by value, other identifiers by their characters.
Two spellings of one number differ by their length. -/
def identifierKey (identifier : Text) : List Nat :=
  if identifier.all Char.isDigit then [0, value identifier, identifier.length]
  else 1 :: identifier.map Char.toNat

/-- The key of a version. -/
def key (v : Version) : List (List (List Nat)) :=
  [[[v.major]], [[v.minor]], [[v.patch]],
    if v.pre = [] then [[1]] else [0] :: v.pre.map identifierKey,
    v.build.map identifierKey]

/-- Which of two versions is older. -/
def order (v w : Version) : Ordering := compare v.key w.key

/-- Whether one version is older than another. -/
def older (v w : Version) : Bool := v.order w = .lt

end Version
end Templating
