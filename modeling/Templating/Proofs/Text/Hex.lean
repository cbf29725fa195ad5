import Mathlib.Data.Nat.Digits.Defs
import Templating.Text.Hex

/-!
# Hexadecimal numbers are read back

The digits that `Text.hex` writes are read by `Text.hexNumber?`, with zeros in front of them or without.
So a number is never written like another one, which is what escapes and the names of classes rest on.
-/

set_option autoImplicit false

namespace Templating
namespace Text

theorem hexDigit?_digitChar {d : Nat} (h : d < 16) : hexDigit? d.digitChar = some d := by
  have hall : ∀ d < 16, hexDigit? (Nat.digitChar d) = some d := by decide
  exact hall d h

/-- The digits of a number have its value. -/
theorem hexNumber?_hex (n : Nat) : hexNumber? (hex n) = some n := by
  -- The last digit is taken off, as `Nat.toDigits` puts it on.
  induction n using Nat.strongRecOn with
  | _ n ih =>
    rw [hex, Nat.toDigits_eq_if (by decide)]
    split
    · next hlt => simp [hexNumber?, hexDigit?_digitChar hlt]
    · next hge =>
      have hrest : hexNumber? (Nat.toDigits 16 (n / 16)) = some (n / 16) := ih _ (by omega)
      rw [hexNumber?] at hrest ⊢
      have hsum : 16 * (n / 16) + n % 16 = n := by omega
      simp [List.foldlM_append, hrest, hexDigit?_digitChar (Nat.mod_lt n (by decide)), hsum]

/-- Zeros in front of a number do not count. -/
theorem hexNumber?_zeros (k : Nat) (digits : Text) :
    hexNumber? (List.replicate k '0' ++ digits) = hexNumber? digits := by
  induction k with
  | zero => rfl
  | succ k ih => exact ih

theorem hexPadded_inj {width m n : Nat} : hexPadded width m = hexPadded width n ↔ m = n := by
  refine ⟨fun h => ?_, fun h => h ▸ rfl⟩
  have hread (n : Nat) : hexNumber? (hexPadded width n) = some n := by
    rw [hexPadded, hexNumber?_zeros, hexNumber?_hex]
  exact Option.some.inj ((hread m).symm.trans (h ▸ hread n))

end Text
end Templating
