import Mathlib.Algebra.Group.Nat.Defs
import TextProviders.Text.Digit

/-!
# Hexadecimal digits read back

A number written in a fixed count of hexadecimal digits is read back modulo the power of sixteen
that the count can hold, and nothing but the digits `0` to `f` is written.
-/

namespace TextProviders.Text

/-! ## One digit -/

theorem hexValue?_hexDigit : ∀ d, d < 16 → hexValue? (hexDigit d) = some d := by decide

theorem toNat_hexDigit : ∀ d, d < 16 →
    0x30 ≤ (hexDigit d).toNat ∧ (hexDigit d).toNat ≤ 0x66 ∧ hexDigit d ≠ '\\' := by decide

/-! ## A number -/

theorem mem_hexDigits {c : Char} : ∀ {count n : Nat}, c ∈ hexDigits n count →
    ∃ d, d < 16 ∧ c = hexDigit d
  | count + 1, n, h => by
      rcases List.mem_append.mp h with hhigh | hlow
      · exact mem_hexDigits hhigh
      · exact ⟨n % 16, Nat.mod_lt _ (by decide), List.mem_singleton.mp hlow⟩

theorem digitsValue?_append (base : Nat) (digits : List Char) (last : Char) :
    digitsValue? base (digits ++ [last]) =
      (digitsValue? base digits).bind fun high =>
        (hexValue? last).bind fun low =>
          if low < base then some (high * base + low) else none := by
  rw [digitsValue?, List.foldl_append]
  rfl

theorem digitsValue?_hexDigits (n count : Nat) :
    digitsValue? 16 (hexDigits n count) = some (n % 16 ^ count) := by
  induction count generalizing n with
  | zero => rw [Nat.pow_zero, Nat.mod_one]; rfl
  | succ count ih =>
      have hlow : n % 16 < 16 := Nat.mod_lt _ (by decide)
      have hjoin : n / 16 % 16 ^ count * 16 + n % 16 = n % 16 ^ (count + 1) := by
        rw [Nat.pow_succ, Nat.mul_comm (16 ^ count) 16, Nat.mod_mul]
        omega
      rw [hexDigits, digitsValue?_append, ih, hexValue?_hexDigit _ hlow]
      show (if n % 16 < 16 then some (n / 16 % 16 ^ count * 16 + n % 16) else none) = _
      rw [if_pos hlow, hjoin]

/-- Characters among which one is no digit have no value. -/
theorem digitsValue?_eq_none {c : Char} (hc : hexValue? c = none) (base : Nat)
    (before after : List Char) : digitsValue? base (before ++ c :: after) = none := by
  have hnone : ∀ (digits : List Char), digits.foldl (fun sum c => do
      let high ← sum
      let low ← hexValue? c
      if low < base then some (high * base + low) else none) none = none := by
    intro digits
    induction digits with
    | nil => rfl
    | cons d digits ih => exact ih
  rw [List.append_cons, digitsValue?, List.foldl_append]
  have hupto := digitsValue?_append base before c
  rw [hc] at hupto
  rw [digitsValue?] at hupto
  rw [hupto]
  cases hbefore : digitsValue? base before with
  | none => exact hnone after
  | some high => exact hnone after

end TextProviders.Text
