import Templating.Proofs.Encoding.RoundTrip

/-!
# Bytes that could be read in two encodings

The same bytes can be well-formed in UTF-8 and in UTF-16, but then they say different things.  To see
that, bytes are given weights.  Less of the weight of a character is in its bytes of UTF-8 than in those
of UTF-16, measured against their number, and in whatever order the two bytes of a unit stand.

## What is here

* `weight` is the weight of bytes; `weight_utf8_lt` compares the two ways to write a character, and
  `weight_utf8_text` those to write a text.
* `TextEncoding.eq_nil_of_body_eq_encode`: only the empty text is written in UTF-16 without the mark as
  it is in an encoding with its mark.
-/

set_option autoImplicit false

namespace Templating

/-! ## Weights

The weights are chosen so that every character comes out lighter in UTF-8, when the numbers of bytes are
counted against each other.  They do not depend on the place of a byte, so the order of the bytes in a
unit is of no matter. -/

/-- The weight of a byte: ASCII characters are heavy, and what can begin a surrogate is less so. -/
def byteWeight (b : UInt8) : Nat :=
  if b.toNat < 0x80 then 2 else if 0xD8 ≤ b.toNat ∧ b.toNat < 0xE0 then 1 else 0

/-- The weight of some bytes. -/
def weight : Bytes → Nat
  | [] => 0
  | b :: bytes => byteWeight b + weight bytes

/-- Weights add up. -/
theorem weight_append (bytes bytes' : Bytes) : weight (bytes ++ bytes') = weight bytes + weight bytes' := by
  induction bytes with
  | nil => exact (Nat.zero_add _).symm
  | cons b bytes ih => rw [List.cons_append, weight, weight, ih, Nat.add_assoc]

/-- The weight of a byte, by its number. -/
theorem byteWeight_ofNat {n : Nat} (h : n < 256) :
    byteWeight (UInt8.ofNat n) = if n < 0x80 then 2 else if 0xD8 ≤ n ∧ n < 0xE0 then 1 else 0 := by
  rw [byteWeight, UInt8.toNat_ofNat_of_lt' h]

/-- ASCII characters are heavy. -/
theorem byteWeight_ascii {n : Nat} (h : n < 0x80) : byteWeight (UInt8.ofNat n) = 2 := by
  rw [byteWeight_ofNat (by omega), if_pos h]

/-- What begins a surrogate has some weight. -/
theorem byteWeight_surrogate {n : Nat} (hlo : 0xD8 ≤ n) (hhi : n < 0xE0) :
    byteWeight (UInt8.ofNat n) = 1 := by
  rw [byteWeight_ofNat (by omega), if_neg (by omega), if_pos ⟨hlo, hhi⟩]

/-- What begins a character of two bytes has little weight, -/
theorem byteWeight_lead {n : Nat} (hlo : 0x80 ≤ n) (hhi : n < 256) : byteWeight (UInt8.ofNat n) ≤ 1 := by
  rw [byteWeight_ofNat hhi, if_neg (by omega)]
  split
  · exact Nat.le_refl _
  · exact Nat.zero_le _

/-- and what begins a longer one, or goes on with it, has none. -/
theorem byteWeight_zero {n : Nat} (h : 0x80 ≤ n ∧ n < 0xD8 ∨ 0xE0 ≤ n ∧ n < 256) :
    byteWeight (UInt8.ofNat n) = 0 := by
  rw [byteWeight_ofNat (by omega), if_neg (by omega), if_neg (by omega)]

/-! ## One character

A character has one byte in UTF-8, or two, three or four.  In each case its bytes of UTF-16 are bounded
from below and those of UTF-8 from above. -/

/-- A unit has the weight of its two bytes. -/
theorem weight_unitBytes (endian : Utf16.Endian) (u : UInt16) :
    weight (Utf16.unitBytes endian u)
      = byteWeight (UInt8.ofNat (u.toNat / 256)) + byteWeight (UInt8.ofNat (u.toNat % 256)) := by
  cases endian with
  | little => simp [weight, Utf16.unitBytes, Nat.add_comm]
  | big => simp [weight, Utf16.unitBytes]

/-- It has two of them. -/
theorem length_unitBytes (endian : Utf16.Endian) (u : UInt16) :
    (Utf16.unitBytes endian u).length = 2 := by
  cases endian with
  | little => rfl
  | big => rfl

/-- A character of one unit has the weight of its two bytes. -/
theorem utf16_basic (endian : Utf16.Endian) {c : Char} (h : c.toNat < 0x10000) :
    weight (Utf16.toBytes endian (Utf16.encodeChar c))
        = byteWeight (UInt8.ofNat (c.toNat / 256)) + byteWeight (UInt8.ofNat (c.toNat % 256)) ∧
      (Utf16.toBytes endian (Utf16.encodeChar c)).length = 2 := by
  have hbytes : Utf16.toBytes endian (Utf16.encodeChar c)
      = Utf16.unitBytes endian (UInt16.ofNat c.toNat) := by
    rw [Utf16.encodeChar, if_pos h]
    exact List.flatMap_singleton ..
  rw [hbytes, weight_unitBytes, Utf16.toNat_unit h]
  exact ⟨rfl, length_unitBytes _ _⟩

/-- A character of two units has at least the weight of what begins a surrogate, twice. -/
theorem utf16_pair (endian : Utf16.Endian) {c : Char} (h : 0x10000 ≤ c.toNat)
    (hmax : c.toNat < 0x110000) :
    2 ≤ weight (Utf16.toBytes endian (Utf16.encodeChar c)) ∧
      (Utf16.toBytes endian (Utf16.encodeChar c)).length = 4 := by
  have hbytes (u v : UInt16) :
      Utf16.toBytes endian [u, v] = Utf16.unitBytes endian u ++ Utf16.unitBytes endian v := by
    simp [Utf16.toBytes]
  have hhigh : 0xD800 + (c.toNat - 0x10000) / 0x400 < 0x10000 := by omega
  have hlow : 0xDC00 + (c.toNat - 0x10000) % 0x400 < 0x10000 := by omega
  rw [Utf16.encodeChar, if_neg (Nat.not_lt.2 h), hbytes, weight_append, weight_unitBytes,
    weight_unitBytes, Utf16.toNat_unit hhigh, Utf16.toNat_unit hlow,
    byteWeight_surrogate (by omega) (by omega)]
  rw [byteWeight_surrogate (n := (0xDC00 + (c.toNat - 0x10000) % 0x400) / 256) (by omega) (by omega),
    List.length_append, length_unitBytes, length_unitBytes]
  omega

/-- A character is lighter in UTF-8 than in UTF-16, and the more so the longer it is there. -/
theorem weight_utf8_lt (endian : Utf16.Endian) (c : Char) :
    weight (String.utf8EncodeChar c) + (Utf16.toBytes endian (Utf16.encodeChar c)).length
      < weight (Utf16.toBytes endian (Utf16.encodeChar c)) + (String.utf8EncodeChar c).length := by
  have hn : c.val.toNat = c.toNat := rfl
  have hmax : c.toNat < 0x110000 := by
    have hvalid : c.toNat.isValidChar := c.valid
    rw [Nat.isValidChar] at hvalid
    omega
  have hcons (b : UInt8) (bytes : Bytes) : weight (b :: bytes) = byteWeight b + weight bytes := rfl
  have hnil : weight [] = 0 := rfl
  -- The cases are those of the number of bytes in UTF-8.
  by_cases hbasic : c.toNat < 0x10000
  · obtain ⟨hweight, hlength⟩ := utf16_basic endian hbasic
    rw [hweight, hlength]
    by_cases hascii : c.toNat < 0x80
    · rw [String.utf8EncodeChar, hn, if_pos (by omega), hcons, hnil, byteWeight_ascii hascii,
        byteWeight_ascii (n := c.toNat / 256) (by omega),
        byteWeight_ascii (n := c.toNat % 256) (by omega)]
      simp only [List.length_cons, List.length_nil]
      omega
    · by_cases htwo : c.toNat < 0x800
      · have hlead := byteWeight_lead (n := c.toNat / 64 % 32 + 192) (by omega) (by omega)
        rw [String.utf8EncodeChar, hn, if_neg (by omega), if_pos (by omega), hcons, hcons, hnil,
          byteWeight_zero (n := c.toNat % 64 + 128) (by omega),
          byteWeight_ascii (n := c.toNat / 256) (by omega)]
        simp only [List.length_cons, List.length_nil]
        omega
      · rw [String.utf8EncodeChar, hn, if_neg (by omega), if_neg (by omega), if_pos (by omega), hcons,
          hcons, hcons, hnil, byteWeight_zero (n := c.toNat / 4096 % 16 + 224) (by omega),
          byteWeight_zero (n := c.toNat / 64 % 64 + 128) (by omega),
          byteWeight_zero (n := c.toNat % 64 + 128) (by omega)]
        simp only [List.length_cons, List.length_nil]
        omega
  · obtain ⟨hweight, hlength⟩ := utf16_pair endian (Nat.not_lt.1 hbasic) hmax
    rw [String.utf8EncodeChar, hn, if_neg (by omega), if_neg (by omega), if_neg (by omega), hlength,
      hcons, hcons, hcons, hcons, hnil, byteWeight_zero (n := c.toNat / 262144 % 8 + 240) (by omega),
      byteWeight_zero (n := c.toNat / 4096 % 64 + 128) (by omega),
      byteWeight_zero (n := c.toNat / 64 % 64 + 128) (by omega),
      byteWeight_zero (n := c.toNat % 64 + 128) (by omega)]
    simp only [List.length_cons, List.length_nil]
    omega

/-! ## Texts

What holds of each character holds of a text, if there is a character in it. -/

/-- A text that is not empty is lighter in UTF-8. -/
theorem weight_utf8_text (endian : Utf16.Endian) {t : Text} (ht : t ≠ []) :
    weight (Utf8.encode t) + (Utf16.toBytes endian (Utf16.encode t)).length
      < weight (Utf16.toBytes endian (Utf16.encode t)) + (Utf8.encode t).length := by
  have hutf16 (c : Char) (t : Text) : Utf16.toBytes endian (Utf16.encode (c :: t))
      = Utf16.toBytes endian (Utf16.encodeChar c) ++ Utf16.toBytes endian (Utf16.encode t) :=
    List.flatMap_append
  have hutf8 (c : Char) (t : Text) :
      Utf8.encode (c :: t) = String.utf8EncodeChar c ++ Utf8.encode t := rfl
  induction t with
  | nil => exact absurd rfl ht
  | cons c t ih =>
    have hchar := weight_utf8_lt endian c
    rw [hutf16, hutf8, weight_append, weight_append, List.length_append, List.length_append]
    by_cases hnil : t = []
    · subst hnil
      have hempty : Utf16.toBytes endian (Utf16.encode []) = [] := rfl
      have hempty' : Utf8.encode [] = [] := rfl
      rw [hempty, hempty']
      exact hchar
    · have htext := ih hnil
      omega

/-- A text is written differently in UTF-8 and in UTF-16 if there is anything in it; a mark in front of
it makes it longer still. -/
theorem eq_nil_of_utf8_eq_utf16 {mark : Bytes} (hmark : weight mark ≤ mark.length)
    {endian : Utf16.Endian} {t : Text}
    (h : mark ++ Utf8.encode t = Utf16.toBytes endian (Utf16.encode t)) : t = [] := by
  cases t with
  | nil => rfl
  | cons c t =>
    have hlt := weight_utf8_text endian (List.cons_ne_nil c t)
    rw [← h, weight_append, List.length_append] at hlt
    omega

namespace TextEncoding

/-! ## Encodings

Of two encodings of UTF-16 the mark makes one longer, and units have two bytes each, so they cannot be
the same bytes.  That leaves UTF-8, with a mark or without. -/

/-- Units are written in two bytes each. -/
theorem length_toBytes (endian : Utf16.Endian) (units : List UInt16) :
    (Utf16.toBytes endian units).length = 2 * units.length := by
  have hcons (u : UInt16) (units : List UInt16) :
      Utf16.toBytes endian (u :: units) = Utf16.unitBytes endian u ++ Utf16.toBytes endian units := rfl
  induction units with
  | nil => rfl
  | cons u units ih =>
    rw [hcons, List.length_append, ih, length_unitBytes, List.length_cons]
    omega

/-- Without its mark a text in UTF-16 is not what the text is written as in any encoding. -/
theorem eq_nil_of_body_eq_encode {e e' : TextEncoding} {t : Text} (he : e = utf16le ∨ e = utf16be)
    (h : e'.encode t = e.body t) : t = [] := by
  obtain ⟨endian, hbody⟩ : ∃ endian, e.body t = Utf16.toBytes endian (Utf16.encode t) := by
    rcases he with rfl | rfl
    · exact ⟨.little, rfl⟩
    · exact ⟨.big, rfl⟩
  rw [hbody] at h
  have hlonger (endian' : Utf16.Endian) (mark : Bytes) (hmark : mark.length = 2) :
      mark ++ Utf16.toBytes endian' (Utf16.encode t) ≠ Utf16.toBytes endian (Utf16.encode t) := by
    intro heq
    have hlength := congrArg List.length heq
    rw [List.length_append, length_toBytes, length_toBytes, hmark] at hlength
    omega
  cases e' with
  | utf8 => exact eq_nil_of_utf8_eq_utf16 (by decide) h
  | utf8Bom => exact eq_nil_of_utf8_eq_utf16 (by decide) h
  | utf16le => exact absurd h (hlonger .little _ rfl)
  | utf16be => exact absurd h (hlonger .big _ rfl)

end TextEncoding
end Templating
