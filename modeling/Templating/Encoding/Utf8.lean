import Templating.Text.Basic

/-!
# UTF-8

`Utf8.encode` and `Utf8.decode?` are inverse to each other: a text survives being written and read,
and bytes that can be read are the only way to write what they say.
-/

set_option autoImplicit false

namespace Templating

/-- The contents of a file. -/
abbrev Bytes := List UInt8

namespace Utf8

/-- A text in UTF-8. -/
def encode (t : Text) : Bytes := t.flatMap String.utf8EncodeChar

/-- The text that bytes stand for, if they are well-formed UTF-8. -/
def decode? (bytes : Bytes) : Option Text := bytes.toByteArray.utf8Decode?.map Array.toList

theorem toByteArray_encode (t : Text) : (encode t).toByteArray = t.utf8Encode := rfl

@[simp] theorem decode?_encode (t : Text) : decode? (encode t) = some t := by
  simp [decode?, toByteArray_encode, List.utf8Decode?_utf8Encode]

theorem encode_of_decode? {bytes : Bytes} {t : Text} (h : decode? bytes = some t) :
    encode t = bytes := by
  obtain ⟨chars, hc, rfl⟩ := Option.map_eq_some_iff.1 h
  have hs : bytes.toByteArray.utf8Decode?.isSome = true := by rw [hc]; rfl
  have h' := ByteArray.utf8Encode_get_utf8Decode? (h := hs)
  simp only [hc, Option.get_some] at h'
  have := congrArg (·.data.toList) ((toByteArray_encode _).trans h')
  simpa using this

theorem length_encode (t : Text) : (encode t).length = t.size := by
  induction t with
  | nil => rfl
  | cons c t ih =>
    have : encode (c :: t) = String.utf8EncodeChar c ++ encode t := rfl
    simp [this, ih, String.length_utf8EncodeChar]

end Utf8
end Templating
