import Templating.Encoding.Basic
import Templating.Proofs.Encoding.Utf16

/-!
# What is written is what is read

The byte-order marks tell the encodings apart, and behind its mark every encoding can be read in one
way.  So reading and writing undo each other, byte for byte.  One text is in the way: plain UTF-8 has no
mark, and a text that starts with U+FEFF starts with the same bytes as one behind a mark.

## What is here

* `TextEncoding.body` is what stands behind the mark of an encoding, `TextEncoding.ofBody?` reads it.
* `TextEncoding.detect?_mark` and `TextEncoding.detect?_eq_utf8_iff` say what is told by the mark.
* `TextEncoding.read_iff_written`: bytes are told to have an encoding, and are read in it as a text,
  exactly if that is how they are written.
-/

set_option autoImplicit false

namespace Templating

/-- The character that a byte-order mark is, if it is taken for text. -/
def byteOrderMark : Char := '\uFEFF'

/-! ## UTF-8

That UTF-8 can be read in one way is known of the bytes of strings.  Here the same is said of texts,
along with what the first byte of a text can be. -/

namespace Utf8

/-- Texts are written one after the other. -/
theorem encode_append (s t : Text) : encode (s ++ t) = encode s ++ encode t := List.flatMap_append

/-- Bytes can be read exactly if they are what a text is written as. -/
theorem decode?_eq_some_iff {bytes : Bytes} {t : Text} : decode? bytes = some t ↔ encode t = bytes :=
  ⟨encode_of_decode?, fun h => h ▸ decode?_encode t⟩

/-- What is written first can be told from the bytes. -/
theorem prefix_of_encode_prefix {s t : Text} (h : encode s <+: encode t) : s <+: t := by
  obtain ⟨rest, hrest⟩ := h
  refine List.isPrefix_of_utf8Encode_append_eq_utf8Encode rest.toByteArray ?_
  rw [← toByteArray_encode, ← toByteArray_encode, ← List.toByteArray_append, hrest]

/-- The first byte of a character. -/
theorem head_utf8EncodeChar_lt (c : Char) :
    ∃ b bytes, String.utf8EncodeChar c = b :: bytes ∧ b.toNat < 0xF8 := by
  have hlt {n : Nat} (h : n < 0xF8) : (UInt8.ofNat n).toNat < 0xF8 := by
    rw [UInt8.toNat_ofNat_of_lt' (Nat.lt_trans h (by decide))]
    exact h
  rw [String.utf8EncodeChar]
  split
  · exact ⟨_, _, rfl, hlt (by omega)⟩
  · split
    · exact ⟨_, _, rfl, hlt (by omega)⟩
    · split
      · exact ⟨_, _, rfl, hlt (by omega)⟩
      · exact ⟨_, _, rfl, hlt (by omega)⟩

/-- No text starts with one of the bytes that UTF-8 has no use for. -/
theorem not_prefix_encode {b : UInt8} (hb : 0xF8 ≤ b.toNat) (bytes : Bytes) (t : Text) :
    ¬ (b :: bytes) <+: encode t := by
  cases t with
  | nil => exact fun h => List.cons_ne_nil _ _ (List.prefix_nil.1 h)
  | cons c t =>
    obtain ⟨b', bytes', hc, hlt⟩ := head_utf8EncodeChar_lt c
    have hcons : encode (c :: t) = String.utf8EncodeChar c ++ encode t := rfl
    rw [hcons, hc, List.cons_append]
    intro h
    rw [(List.cons_prefix_cons.1 h).1] at hb
    omega

end Utf8

namespace TextEncoding

/-! ## Behind the mark

Reading an encoding drops its mark if there is one, and then reads the rest; writing puts the mark in
front.  What is between the two is the same in all encodings: what stands behind the mark can be read in
one way. -/

/-- A text as an encoding has it behind its byte-order mark. -/
def body : TextEncoding → Text → Bytes
  | utf8, t | utf8Bom, t => Utf8.encode t
  | utf16le, t => Utf16.toBytes .little (Utf16.encode t)
  | utf16be, t => Utf16.toBytes .big (Utf16.encode t)

/-- Reads what stands behind the byte-order mark. -/
def ofBody? : TextEncoding → Bytes → Option Text
  | utf8, bytes | utf8Bom, bytes => Utf8.decode? bytes
  | utf16le, bytes => Utf16.ofBytes? .little bytes >>= Utf16.decode?
  | utf16be, bytes => Utf16.ofBytes? .big bytes >>= Utf16.decode?

/-- A text is written behind the mark. -/
theorem encode_eq (e : TextEncoding) (t : Text) : e.encode t = e.mark ++ e.body t := by
  cases e <;> rfl

/-- A mark is dropped before the rest is read. -/
theorem decode?_eq (e : TextEncoding) (bytes : Bytes) :
    e.decode? bytes = e.ofBody?
      (if e.readMark.isPrefixOf bytes then bytes.drop e.readMark.length else bytes) := by
  cases e <;> rfl

/-- In UTF-16 the bytes are read as units and those as a text. -/
theorem utf16_eq_some_iff {endian : Utf16.Endian} {bytes : Bytes} {t : Text} :
    Utf16.ofBytes? endian bytes >>= Utf16.decode? = some t ↔
      Utf16.toBytes endian (Utf16.encode t) = bytes := by
  rw [Option.bind_eq_bind, Option.bind_eq_some_iff]
  constructor
  · rintro ⟨units, hunits, ht⟩
    rw [Utf16.decode?_eq_some_iff.1 ht, Utf16.ofBytes?_eq_some_iff.1 hunits]
  · rintro rfl
    exact ⟨_, Utf16.ofBytes?_toBytes endian _, Utf16.decode?_encode t⟩

/-- Behind the mark there is one way to write a text. -/
theorem ofBody?_eq_some_iff {e : TextEncoding} {bytes : Bytes} {t : Text} :
    e.ofBody? bytes = some t ↔ e.body t = bytes := by
  cases e with
  | utf8 => exact Utf8.decode?_eq_some_iff
  | utf8Bom => exact Utf8.decode?_eq_some_iff
  | utf16le => exact utf16_eq_some_iff
  | utf16be => exact utf16_eq_some_iff

/-- With a mark the rest is read. -/
theorem decode?_readMark (e : TextEncoding) (bytes : Bytes) :
    e.decode? (e.readMark ++ bytes) = e.ofBody? bytes := by
  rw [decode?_eq, if_pos (List.isPrefixOf_iff_prefix.2 (List.prefix_append _ _)), List.drop_left]

/-- Without one everything is read. -/
theorem decode?_of_unmarked {e : TextEncoding} {bytes : Bytes} (h : ¬ e.readMark <+: bytes) :
    e.decode? bytes = e.ofBody? bytes := by
  rw [decode?_eq, if_neg (fun hprefix => h (List.isPrefixOf_iff_prefix.1 hprefix))]

/-- Only plain UTF-8 drops a mark that it does not write. -/
theorem readMark_of_ne {e : TextEncoding} (he : e ≠ utf8) : e.readMark = e.mark := by
  cases e with
  | utf8 => exact absurd rfl he
  | utf8Bom => rfl
  | utf16le => rfl
  | utf16be => rfl

/-! ## What the mark tells

No mark is the front of another one, so at most one of them is there.  If none is, the bytes are taken
for plain UTF-8, and then they must be readable. -/

/-- The mark of UTF-8 is a character of its own. -/
theorem mark_utf8Bom : utf8Bom.mark = Utf8.encode [byteOrderMark] := by decide

/-- A mark tells its encoding. -/
theorem detect?_mark {e : TextEncoding} (he : e ≠ utf8) (bytes : Bytes) :
    detect? (e.mark ++ bytes) = some e := by
  cases e with
  | utf8 => exact absurd rfl he
  | utf8Bom => simp [detect?, mark]
  | utf16le => simp [detect?, mark]
  | utf16be => simp [detect?, mark]

/-- Without one only plain UTF-8 is left. -/
theorem detect?_unmarked {bytes : Bytes} (h : ∀ e, e ≠ utf8 → ¬ e.mark <+: bytes) :
    detect? bytes = if (Utf8.decode? bytes).isSome then some utf8 else none := by
  have hno (e : TextEncoding) (he : e ≠ utf8) : ¬ e.mark.isPrefixOf bytes = true :=
    fun hmark => h e he (List.isPrefixOf_iff_prefix.1 hmark)
  rw [detect?, if_neg (hno utf8Bom (by decide)), if_neg (hno utf16le (by decide)),
    if_neg (hno utf16be (by decide))]

/-- Plain UTF-8 is what has no mark and can be read. -/
theorem detect?_eq_utf8_iff {bytes : Bytes} :
    detect? bytes = some utf8 ↔
      (∀ e, e ≠ utf8 → ¬ e.mark <+: bytes) ∧ (Utf8.decode? bytes).isSome = true := by
  constructor
  · intro h
    have hmarks (e : TextEncoding) (he : e ≠ utf8) : ¬ e.mark <+: bytes := by
      rintro ⟨rest, rfl⟩
      rw [detect?_mark he] at h
      exact he (Option.some.inj h)
    rw [detect?_unmarked hmarks] at h
    exact ⟨hmarks, (Option.ite_none_right_eq_some.1 h).1⟩
  · rintro ⟨hmarks, hread⟩
    rw [detect?_unmarked hmarks, if_pos hread]

/-- The encoding that is told has its mark there. -/
theorem mark_prefix_of_detect? {e : TextEncoding} {bytes : Bytes} (h : detect? bytes = some e) :
    e.mark <+: bytes := by
  by_cases hmarked : ∃ e', e' ≠ utf8 ∧ e'.mark <+: bytes
  · obtain ⟨e', he', rest, rfl⟩ := hmarked
    rw [detect?_mark he'] at h
    cases h
    exact List.prefix_append _ _
  · rw [detect?_unmarked fun e' he' hmark => hmarked ⟨e', he', hmark⟩] at h
    obtain rfl : utf8 = e := Option.some.inj (Option.ite_none_right_eq_some.1 h).2
    exact List.nil_prefix

/-- What is written in plain UTF-8 starts like a mark only if the text does. -/
theorem not_mark_prefix_encode {t : Text} (ht : t.head? ≠ some byteOrderMark) {e : TextEncoding}
    (he : e ≠ utf8) : ¬ e.mark <+: Utf8.encode t := by
  cases e with
  | utf8 => exact absurd rfl he
  | utf16le => exact Utf8.not_prefix_encode (by decide) _ t
  | utf16be => exact Utf8.not_prefix_encode (by decide) _ t
  | utf8Bom =>
    rw [mark_utf8Bom]
    intro h
    obtain ⟨rest, rfl⟩ := Utf8.prefix_of_encode_prefix h
    exact ht rfl

/-! ## Reading and writing

Bytes that are written are told and read as they were meant, unless plain UTF-8 starts with the
character that the mark of UTF-8 is.  And bytes that are read are written again as they were, without
exception. -/

/-- What is written is read. -/
theorem read_written {e : TextEncoding} {t : Text}
    (h : ¬ (e = utf8 ∧ t.head? = some byteOrderMark)) :
    detect? (e.encode t) = some e ∧ e.decode? (e.encode t) = some t := by
  have hbody : e.ofBody? (e.body t) = some t := ofBody?_eq_some_iff.2 rfl
  by_cases he : e = utf8
  · subst he
    have ht : t.head? ≠ some byteOrderMark := fun ht => h ⟨rfl, ht⟩
    have hencode : utf8.encode t = Utf8.encode t := rfl
    have hmark : ¬ utf8.readMark <+: Utf8.encode t :=
      not_mark_prefix_encode ht (by decide : utf8Bom ≠ utf8)
    rw [hencode, detect?_eq_utf8_iff, decode?_of_unmarked hmark, Utf8.decode?_encode]
    exact ⟨⟨fun _ => not_mark_prefix_encode ht, rfl⟩, hbody⟩
  · rw [encode_eq, detect?_mark he, ← readMark_of_ne he, decode?_readMark]
    exact ⟨rfl, hbody⟩

/-- What is read is written. -/
theorem encode_of_read {e : TextEncoding} {bytes : Bytes} {t : Text} (hdetect : detect? bytes = some e)
    (hdecode : e.decode? bytes = some t) : e.encode t = bytes := by
  by_cases he : e = utf8
  · subst he
    have hmark : ¬ utf8.readMark <+: bytes := (detect?_eq_utf8_iff.1 hdetect).1 utf8Bom (by decide)
    rw [decode?_of_unmarked hmark] at hdecode
    exact ofBody?_eq_some_iff.1 hdecode
  · obtain ⟨rest, rfl⟩ := mark_prefix_of_detect? hdetect
    rw [← readMark_of_ne he, decode?_readMark] at hdecode
    rw [encode_eq, ofBody?_eq_some_iff.1 hdecode]

/-- Plain UTF-8 that starts with U+FEFF is taken for UTF-8 behind a mark, and one U+FEFF is lost. -/
theorem read_byteOrderMark (t : Text) :
    detect? (utf8.encode (byteOrderMark :: t)) = some utf8Bom ∧
      utf8.decode? (utf8.encode (byteOrderMark :: t)) = some t ∧
      utf8Bom.decode? (utf8.encode (byteOrderMark :: t)) = some t := by
  have hencode : utf8.encode (byteOrderMark :: t) = utf8Bom.mark ++ Utf8.encode t := by
    rw [mark_utf8Bom, ← Utf8.encode_append]
    rfl
  have hplain : utf8.readMark = utf8Bom.mark := rfl
  have hmarked : utf8Bom.readMark = utf8Bom.mark := rfl
  rw [hencode]
  refine ⟨detect?_mark (by decide) _, ?_, ?_⟩
  · rw [← hplain, decode?_readMark]
    exact Utf8.decode?_encode t
  · rw [← hmarked, decode?_readMark]
    exact Utf8.decode?_encode t

/-- **Bytes are read as a text exactly if they are what the text is written as**, in the encoding that
they tell; only plain UTF-8 that starts with U+FEFF is read as the rest of the text behind a mark. -/
theorem read_iff_written (e : TextEncoding) (bytes : Bytes) (t : Text) :
    (detect? bytes = some e ∧ e.decode? bytes = some t ↔
      bytes = e.encode t ∧ ¬ (e = utf8 ∧ t.head? = some byteOrderMark)) ∧
    detect? (utf8.encode (byteOrderMark :: t)) = some utf8Bom ∧
    utf8.decode? (utf8.encode (byteOrderMark :: t)) = some t ∧
    utf8Bom.decode? (utf8.encode (byteOrderMark :: t)) = some t := by
  refine ⟨⟨?_, ?_⟩, read_byteOrderMark t⟩
  · rintro ⟨hdetect, hdecode⟩
    obtain rfl := encode_of_read hdetect hdecode
    refine ⟨rfl, ?_⟩
    rintro ⟨rfl, ht⟩
    obtain ⟨t, rfl⟩ := List.head?_eq_some_iff.1 ht
    rw [(read_byteOrderMark t).1] at hdetect
    cases hdetect
  · rintro ⟨rfl, h⟩
    exact read_written h

end TextEncoding
end Templating
