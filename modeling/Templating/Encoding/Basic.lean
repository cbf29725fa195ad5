import Templating.Encoding.Utf16

/-!
# Text encodings

The encodings that templates and generated files may have.  Every one but plain UTF-8 starts with a
byte-order mark of its own, so the mark tells which one a file has.

## What is here

* `TextEncoding.detect?` guesses the encoding of some bytes.
* `TextEncoding.encode` and `TextEncoding.decode?` write and read texts.
* `TextEncoding.name`, `TextEncoding.swiftName` and `TextEncoding.parse` deal with names.
-/

set_option autoImplicit false

namespace Templating

/-- An encoding of text. -/
inductive TextEncoding where
  | utf8
  /-- UTF-8 behind a byte-order mark. -/
  | utf8Bom
  | utf16le
  | utf16be
  deriving DecidableEq, Repr, Inhabited

namespace TextEncoding

/-! ## Names -/

/-- The name of an encoding. -/
def name : TextEncoding → String
  | utf8 => "utf8"
  | utf8Bom => "utf8-bom"
  | utf16le => "utf16le"
  | utf16be => "utf16be"

instance : ToString TextEncoding := ⟨name⟩

/-- The name of an encoding in generated Swift code. -/
def swiftName : TextEncoding → String
  | utf8 | utf8Bom => ".utf8"
  | utf16le => ".utf16LittleEndian"
  | utf16be => ".utf16BigEndian"

/-- The encoding a name stands for: case does not count, `_` may stand for `-`, and there may be a
`-` after the letters and in front of the byte order. -/
def parse? (name : String) : Option TextEncoding :=
  match String.ofList (name.toList.map fun c => if c = '_' then '-' else c.toLower) with
  | "utf8" | "utf-8" => some utf8
  | "utf8-bom" | "utf-8-bom" => some utf8Bom
  | "utf16le" | "utf16-le" | "utf-16le" | "utf-16-le" => some utf16le
  | "utf16be" | "utf16-be" | "utf-16be" | "utf-16-be" => some utf16be
  | _ => none

/-- What is said about a name that stands for no encoding. -/
def unknownName (name : String) : String :=
  s!"unknown text encoding '{name}' (expected utf8, utf8-bom, utf16le or utf16be)"

/-! ## Bytes -/

/-- The byte-order mark of an encoding, with which its files start. -/
def mark : TextEncoding → Bytes
  | utf8 => []
  | utf8Bom => [0xEF, 0xBB, 0xBF]
  | utf16le => [0xFF, 0xFE]
  | utf16be => [0xFE, 0xFF]

/-- The byte-order mark that is dropped when an encoding is read. -/
def readMark : TextEncoding → Bytes
  | utf8 => mark utf8Bom
  | e => mark e

/-- The encoding of some bytes, as far as they tell: by their byte-order mark, or else UTF-8 if they
are well-formed. -/
def detect? (bytes : Bytes) : Option TextEncoding :=
  if (mark utf8Bom).isPrefixOf bytes then some utf8Bom
  else if (mark utf16le).isPrefixOf bytes then some utf16le
  else if (mark utf16be).isPrefixOf bytes then some utf16be
  else if (Utf8.decode? bytes).isSome then some utf8
  else none

/-- The text that bytes stand for, without a byte-order mark. -/
def decode? (e : TextEncoding) (bytes : Bytes) : Option Text :=
  let bytes := if e.readMark.isPrefixOf bytes then bytes.drop e.readMark.length else bytes
  match e with
  | utf8 | utf8Bom => Utf8.decode? bytes
  | utf16le => Utf16.ofBytes? .little bytes >>= Utf16.decode?
  | utf16be => Utf16.ofBytes? .big bytes >>= Utf16.decode?

/-- The bytes of a text, behind the byte-order mark of the encoding. -/
def encode (e : TextEncoding) (t : Text) : Bytes :=
  e.mark ++
    match e with
    | utf8 | utf8Bom => Utf8.encode t
    | utf16le => Utf16.toBytes .little (Utf16.encode t)
    | utf16be => Utf16.toBytes .big (Utf16.encode t)

end TextEncoding
end Templating
