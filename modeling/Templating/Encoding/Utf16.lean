import Templating.Encoding.Utf8

/-!
# UTF-16

A character outside the basic plane is a pair of units, a high surrogate and a low one; every other
character is one unit.  A unit is two bytes, in one order or the other.

## What is here

* `Utf16.encode` and `Utf16.decode?` go between texts and units.
* `Utf16.toBytes` and `Utf16.ofBytes?` go between units and bytes.
-/

set_option autoImplicit false

namespace Templating
namespace Utf16

/-- The order of the two bytes of a unit. -/
inductive Endian where
  | little
  | big
  deriving DecidableEq, Repr

/-! ## Units -/

/-- The units of a character. -/
def encodeChar (c : Char) : List UInt16 :=
  let n := c.toNat
  if n < 0x10000 then [UInt16.ofNat n]
  else [UInt16.ofNat (0xD800 + (n - 0x10000) / 0x400), UInt16.ofNat (0xDC00 + (n - 0x10000) % 0x400)]

/-- The units of a text. -/
def encode (t : Text) : List UInt16 := t.flatMap encodeChar

/-- Whether a unit is the first of a pair. -/
def isHigh (u : UInt16) : Bool := 0xD800 ≤ u.toNat && u.toNat < 0xDC00

/-- Whether a unit is the second of a pair. -/
def isLow (u : UInt16) : Bool := 0xDC00 ≤ u.toNat && u.toNat < 0xE000

/-- The character of a pair. -/
def pairChar (high low : UInt16) : Char :=
  Char.ofNat (0x10000 + (high.toNat - 0xD800) * 0x400 + (low.toNat - 0xDC00))

/-- The text that units stand for, if no surrogate stands alone. -/
def decode? : List UInt16 → Option Text
  | [] => some []
  | [u] => if isHigh u || isLow u then none else some [Char.ofNat u.toNat]
  | u :: v :: units =>
    if isHigh u then
      if isLow v then (decode? units).map (pairChar u v :: ·) else none
    else if isLow u then none
    else (decode? (v :: units)).map (Char.ofNat u.toNat :: ·)

/-! ## Bytes -/

/-- The two bytes of a unit. -/
def unitBytes (endian : Endian) (u : UInt16) : Bytes :=
  let high := UInt8.ofNat (u.toNat / 256)
  let low := UInt8.ofNat (u.toNat % 256)
  match endian with
  | .little => [low, high]
  | .big => [high, low]

/-- The unit of two bytes. -/
def unitOf (endian : Endian) (first second : UInt8) : UInt16 :=
  match endian with
  | .little => UInt16.ofNat (second.toNat * 256 + first.toNat)
  | .big => UInt16.ofNat (first.toNat * 256 + second.toNat)

/-- Units as bytes. -/
def toBytes (endian : Endian) (units : List UInt16) : Bytes := units.flatMap (unitBytes endian)

/-- The units of bytes, if their number is even. -/
def ofBytes? (endian : Endian) : Bytes → Option (List UInt16)
  | [] => some []
  | [_] => none
  | a :: b :: bytes => (ofBytes? endian bytes).map (unitOf endian a b :: ·)

end Utf16
end Templating
