import Templating.Encoding.Utf16

/-!
# UTF-16 read and written

A character is one unit that is no surrogate, or a high surrogate and a low one.  So a row of units can
be read exactly if it is what a text is written as, and then as that text alone.  The same holds of
units and their bytes, in either order.

## What is here

* `Utf16.encodeChar_cases` says what the units of a character are; `Utf16.encodeChar_ofNat` and
  `Utf16.encodeChar_pairChar` say the same from the side of the units.
* `Utf16.decode?_eq_some_iff` is about units, `Utf16.ofBytes?_eq_some_iff` about their bytes.
-/

set_option autoImplicit false

namespace Templating
namespace Utf16

/-! ## The units of a character

A character below 0x10000 is written as its own number, which is no surrogate, as characters leave those
numbers out.  Any other is less 0x10000 a number of twenty bits, ten for each surrogate.  Both
directions are arithmetic on numbers, so units and characters are turned into numbers first. -/

/-- A unit holds every number below 0x10000. -/
theorem toNat_unit {n : Nat} (h : n < 0x10000) : (UInt16.ofNat n).toNat = n :=
  UInt16.toNat_ofNat_of_lt' h

/-- A character holds every number that is one of a character. -/
theorem toNat_valid {n : Nat} (h : n.isValidChar) : (Char.ofNat n).toNat = n := by
  rw [Char.ofNat, dif_pos h]
  rfl

/-- The numbers of high surrogates. -/
theorem isHigh_iff {u : UInt16} : isHigh u = true ↔ 0xD800 ≤ u.toNat ∧ u.toNat < 0xDC00 := by
  simp [isHigh]

/-- The numbers of low surrogates. -/
theorem isLow_iff {u : UInt16} : isLow u = true ↔ 0xDC00 ≤ u.toNat ∧ u.toNat < 0xE000 := by
  simp [isLow]

/-- A character is one unit, which is no surrogate, or a pair of surrogates. -/
theorem encodeChar_cases (c : Char) :
    (∃ u, encodeChar c = [u] ∧ isHigh u = false ∧ isLow u = false ∧ Char.ofNat u.toNat = c) ∨
      ∃ u v, encodeChar c = [u, v] ∧ isHigh u = true ∧ isLow v = true ∧ pairChar u v = c := by
  have hvalid : c.toNat.isValidChar := c.valid
  rw [Nat.isValidChar] at hvalid
  -- The numbers left out are those of surrogates, so a single unit is none.
  by_cases hbasic : c.toNat < 0x10000
  · refine .inl ⟨UInt16.ofNat c.toNat, by rw [encodeChar, if_pos hbasic], ?_, ?_, ?_⟩
    · rw [Bool.eq_false_iff, ne_eq, isHigh_iff, toNat_unit hbasic]
      omega
    · rw [Bool.eq_false_iff, ne_eq, isLow_iff, toNat_unit hbasic]
      omega
    · rw [toNat_unit hbasic, Char.ofNat_toNat]
  · have hhigh : 0xD800 + (c.toNat - 0x10000) / 0x400 < 0x10000 := by omega
    have hlow : 0xDC00 + (c.toNat - 0x10000) % 0x400 < 0x10000 := by omega
    refine .inr ⟨_, _, by rw [encodeChar, if_neg hbasic], ?_, ?_, ?_⟩
    · rw [isHigh_iff, toNat_unit hhigh]
      omega
    · rw [isLow_iff, toNat_unit hlow]
      omega
    · rw [pairChar, toNat_unit hhigh, toNat_unit hlow]
      have hsum : 0x10000 + (0xD800 + (c.toNat - 0x10000) / 0x400 - 0xD800) * 0x400
          + (0xDC00 + (c.toNat - 0x10000) % 0x400 - 0xDC00) = c.toNat := by omega
      rw [hsum, Char.ofNat_toNat]

/-- A unit that is no surrogate is all of a character. -/
theorem encodeChar_ofNat {u : UInt16} (hhigh : isHigh u = false) (hlow : isLow u = false) :
    encodeChar (Char.ofNat u.toNat) = [u] := by
  rw [Bool.eq_false_iff, ne_eq, isHigh_iff] at hhigh
  rw [Bool.eq_false_iff, ne_eq, isLow_iff] at hlow
  have hu : u.toNat < 0x10000 := u.toNat_lt
  have hvalid : u.toNat.isValidChar := by
    rw [Nat.isValidChar]
    omega
  have hn : (Char.ofNat u.toNat).toNat = u.toNat := toNat_valid hvalid
  rw [encodeChar, hn, if_pos hu, UInt16.ofNat_toNat]

/-- A high surrogate and a low one are all of a character. -/
theorem encodeChar_pairChar {u v : UInt16} (hhigh : isHigh u = true) (hlow : isLow v = true) :
    encodeChar (pairChar u v) = [u, v] := by
  rw [isHigh_iff] at hhigh
  rw [isLow_iff] at hlow
  have hn : (pairChar u v).toNat
      = 0x10000 + (u.toNat - 0xD800) * 0x400 + (v.toNat - 0xDC00) := by
    rw [pairChar, toNat_valid]
    rw [Nat.isValidChar]
    omega
  have hu : 0xD800 + ((pairChar u v).toNat - 0x10000) / 0x400 = u.toNat := by omega
  have hv : 0xDC00 + ((pairChar u v).toNat - 0x10000) % 0x400 = v.toNat := by omega
  rw [encodeChar, if_neg (by omega), hu, hv, UInt16.ofNat_toNat, UInt16.ofNat_toNat]

/-! ## Units

What is read first depends on the first unit: one that is no surrogate is a character, a high surrogate
needs a low one behind it, and a low one cannot come first.  A row of units that can be read is
therefore cut into characters in one way. -/

/-- A unit that is no surrogate is read by itself. -/
theorem decode?_unit {u : UInt16} (hhigh : isHigh u = false) (hlow : isLow u = false)
    (units : List UInt16) :
    decode? (u :: units) = (decode? units).map (Char.ofNat u.toNat :: ·) := by
  cases units with
  | nil => simp [decode?, hhigh, hlow]
  | cons v units => simp [decode?, hhigh, hlow]

/-- Two surrogates are read together. -/
theorem decode?_pair {u v : UInt16} (hhigh : isHigh u = true) (hlow : isLow v = true)
    (units : List UInt16) :
    decode? (u :: v :: units) = (decode? units).map (pairChar u v :: ·) := by
  simp [decode?, hhigh, hlow]

/-- What a text is written as can be read. -/
theorem decode?_encode (t : Text) : decode? (encode t) = some t := by
  induction t with
  | nil => rfl
  | cons c t ih =>
    have hcons : encode (c :: t) = encodeChar c ++ encode t := rfl
    rw [hcons]
    rcases encodeChar_cases c with ⟨u, hunits, hhigh, hlow, hc⟩ | ⟨u, v, hunits, hhigh, hlow, hc⟩
    · rw [hunits, List.singleton_append, decode?_unit hhigh hlow, ih, hc]
      rfl
    · rw [hunits, List.cons_append, List.singleton_append, decode?_pair hhigh hlow, ih, hc]
      rfl

/-- What can be read is written as it was. -/
theorem encode_of_decode? {units : List UInt16} {t : Text} (h : decode? units = some t) :
    encode t = units := by
  fun_induction decode? units generalizing t with
  | case1 =>
    cases h
    rfl
  | case2 u hsurrogate => cases h
  | case3 u hsurrogate =>
    cases h
    simp only [Bool.or_eq_true, not_or, Bool.not_eq_true] at hsurrogate
    rw [encode, List.flatMap_cons, encodeChar_ofNat hsurrogate.1 hsurrogate.2]
    rfl
  | case4 u v units hhigh hlow ih =>
    obtain ⟨t, ht, rfl⟩ := Option.map_eq_some_iff.1 h
    have hrest : t.flatMap encodeChar = units := ih ht
    rw [encode, List.flatMap_cons, hrest, encodeChar_pairChar hhigh hlow]
    rfl
  | case5 u v units hhigh hlow => cases h
  | case6 u v units hhigh hlow => cases h
  | case7 u v units hhigh hlow ih =>
    obtain ⟨t, ht, rfl⟩ := Option.map_eq_some_iff.1 h
    have hrest : t.flatMap encodeChar = v :: units := ih ht
    rw [Bool.not_eq_true] at hhigh hlow
    rw [encode, List.flatMap_cons, hrest, encodeChar_ofNat hhigh hlow]
    rfl

/-- **Units can be read exactly if they are what a text is written as.** -/
theorem decode?_eq_some_iff {units : List UInt16} {t : Text} :
    decode? units = some t ↔ encode t = units :=
  ⟨encode_of_decode?, fun h => h ▸ decode?_encode t⟩

/-! ## Bytes

A unit is two bytes, in one order or the other, and an odd byte at the end is not a unit. -/

/-- The bytes of a unit are two, and they make up the unit. -/
theorem unitOf_unitBytes (endian : Endian) (u : UInt16) :
    ∃ a b, unitBytes endian u = [a, b] ∧ unitOf endian a b = u := by
  have hu : u.toNat / 256 < 256 := Nat.div_lt_of_lt_mul u.toNat_lt
  have hsum : u.toNat / 256 * 256 + u.toNat % 256 = u.toNat := by omega
  have hhigh : (UInt8.ofNat (u.toNat / 256)).toNat = u.toNat / 256 := UInt8.toNat_ofNat_of_lt' hu
  have hlow : (UInt8.ofNat (u.toNat % 256)).toNat = u.toNat % 256 :=
    UInt8.toNat_ofNat_of_lt' (Nat.mod_lt _ (by decide))
  cases endian with
  | little => exact ⟨_, _, rfl, by rw [unitOf, hhigh, hlow, hsum, UInt16.ofNat_toNat]⟩
  | big => exact ⟨_, _, rfl, by rw [unitOf, hhigh, hlow, hsum, UInt16.ofNat_toNat]⟩

/-- Any two bytes are those of the unit that they make up. -/
theorem unitBytes_unitOf (endian : Endian) (a b : UInt8) :
    unitBytes endian (unitOf endian a b) = [a, b] := by
  have ha : a.toNat < 256 := a.toNat_lt
  have hb : b.toNat < 256 := b.toNat_lt
  -- This does not depend on the order: it is about the high byte and the low one.
  have hparts (high low : UInt8) (hhigh : high.toNat < 256) (hlow : low.toNat < 256) :
      UInt8.ofNat ((UInt16.ofNat (high.toNat * 256 + low.toNat)).toNat / 256) = high ∧
        UInt8.ofNat ((UInt16.ofNat (high.toNat * 256 + low.toNat)).toNat % 256) = low := by
    have hdiv : (high.toNat * 256 + low.toNat) / 256 = high.toNat := by omega
    have hmod : (high.toNat * 256 + low.toNat) % 256 = low.toNat := by omega
    rw [toNat_unit (by omega), hdiv, hmod, UInt8.ofNat_toNat, UInt8.ofNat_toNat]
    exact ⟨rfl, rfl⟩
  cases endian with
  | little =>
    obtain ⟨hhigh, hlow⟩ := hparts b a hb ha
    rw [unitBytes, unitOf, hhigh, hlow]
  | big =>
    obtain ⟨hhigh, hlow⟩ := hparts a b ha hb
    rw [unitBytes, unitOf, hhigh, hlow]

/-- The bytes of units can be read. -/
theorem ofBytes?_toBytes (endian : Endian) (units : List UInt16) :
    ofBytes? endian (toBytes endian units) = some units := by
  induction units with
  | nil => rfl
  | cons u units ih =>
    obtain ⟨a, b, hbytes, hunit⟩ := unitOf_unitBytes endian u
    have hcons : toBytes endian (u :: units) = unitBytes endian u ++ toBytes endian units := rfl
    rw [hcons, hbytes, List.cons_append, List.singleton_append, ofBytes?, ih, hunit]
    rfl

/-- Bytes that can be read are those of the units that are read. -/
theorem toBytes_of_ofBytes? {endian : Endian} {bytes : Bytes} {units : List UInt16}
    (h : ofBytes? endian bytes = some units) : toBytes endian units = bytes := by
  fun_induction ofBytes? endian bytes generalizing units with
  | case1 =>
    cases h
    rfl
  | case2 => cases h
  | case3 a b bytes ih =>
    obtain ⟨units, hunits, rfl⟩ := Option.map_eq_some_iff.1 h
    have hrest : units.flatMap (unitBytes endian) = bytes := ih hunits
    rw [toBytes, List.flatMap_cons, hrest, unitBytes_unitOf]
    rfl

/-- **Bytes can be read exactly if they are what units are written as.** -/
theorem ofBytes?_eq_some_iff {endian : Endian} {bytes : Bytes} {units : List UInt16} :
    ofBytes? endian bytes = some units ↔ toBytes endian units = bytes :=
  ⟨toBytes_of_ofBytes?, fun h => h ▸ ofBytes?_toBytes endian units⟩

end Utf16
end Templating
