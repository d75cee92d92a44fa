import LuaGlue.Text.Hex
import Mathlib.Algebra.Group.Nat.Defs

/-!
# Digits

The decimal of a number is made of digits, of which there is at least one, and different numbers
have different decimals. Hexadecimal digits are read back as their number, as far as there are
digits for it.
-/

namespace LuaGlue.Text

/-! ## Decimals -/

theorem toList_toString (n : Nat) : (toString n).toList = Nat.toDigits 10 n := by
  rw [Nat.toString_eq_repr, Nat.toList_repr]

theorem toList_toString_ne_nil (n : Nat) : (toString n).toList ≠ [] := by
  rw [toList_toString]
  exact Nat.toDigits_ne_nil

theorem isDigit_of_mem_toString {n : Nat} {c : Char} (h : c ∈ (toString n).toList) :
    c.isDigit = true := by
  rw [toList_toString] at h
  exact Nat.isDigit_of_mem_toDigits (by decide) (by decide) h

theorem not_mem_toString {c : Char} (h : c.isDigit = false) (n : Nat) :
    c ∉ (toString n).toList := by
  intro hmem
  rw [isDigit_of_mem_toString hmem] at h
  cases h

theorem toString_inj {n n' : Nat} : toString n = toString n' ↔ n = n' := by
  refine ⟨fun h => ?_, congrArg toString⟩
  have hdigits := congrArg String.toList h
  rw [toList_toString, toList_toString] at hdigits
  have hread := congrArg (fun digits => Nat.ofDigitChars 10 digits 0) hdigits
  simpa only [Nat.ofDigitChars_ten_toDigits] using hread

/-! ## Hexadecimal numbers -/

theorem hexNumber?_concat (digits : List Char) (digit : Char) :
    hexNumber? (digits ++ [digit]) =
      (hexNumber? digits).bind fun value =>
        (hexValue? digit).map fun last => 16 * value + last := by
  unfold hexNumber?
  rw [List.foldl_append]
  generalize digits.foldl _ (some 0) = value?
  cases value? with
  | none => rfl
  | some value =>
    cases hdigit : hexValue? digit with
    | none => simp [hdigit]
    | some last => simp [hdigit]

theorem hexNumber?_hexDigits (count n : Nat) :
    hexNumber? (hexDigits count n) = some (n % 16 ^ count) := by
  induction count generalizing n with
  | zero => rw [Nat.pow_zero, Nat.mod_one]; rfl
  | succ count ih =>
    rw [hexDigits, hexNumber?_concat, ih, hexValue?_hexDigit (Nat.mod_lt n (by decide))]
    rw [Nat.pow_succ', Nat.mod_mul, Nat.add_comm]
    rfl

theorem hexNumber?_hexDigits_of_lt {count n : Nat} (h : n < 16 ^ count) :
    hexNumber? (hexDigits count n) = some n := by
  rw [hexNumber?_hexDigits, Nat.mod_eq_of_lt h]

end LuaGlue.Text
