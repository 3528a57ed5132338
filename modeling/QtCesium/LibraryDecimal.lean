import Mathlib.Tactic.Common

/-! Decimal digit strings over ASCII bytes: their value, the digits of a natural number, and that
the digits of a number have that number as their value. -/

namespace Decimal

def isDigit (byte : UInt8) : Bool := 48 ≤ byte && byte ≤ 57

/-- The digit character of `d` as a byte. -/
def digitByte (d : Nat) : UInt8 := UInt8.ofNat (48 + d)

def digitValue (byte : UInt8) : Nat := byte.toNat - 48

/-- The value of a digit string, read from the left. -/
def value (digits : List UInt8) : Nat :=
  digits.foldl (fun total byte => 10 * total + digitValue byte) 0

/-- The decimal digits of a number, without leading zeros. -/
def decimal (n : Nat) : List UInt8 := (Nat.toDigits 10 n).map fun c => UInt8.ofNat c.toNat

theorem value_nil : value [] = 0 := rfl

theorem value_concat (digits : List UInt8) (byte : UInt8) :
    value (digits ++ [byte]) = 10 * value digits + digitValue byte := by
  rw [value, List.foldl_append]
  rfl

theorem digitValue_digitByte {d : Nat} (h : d < 10) : digitValue (digitByte d) = d := by
  rw [digitValue, digitByte, UInt8.toNat_ofNat']
  omega

theorem isDigit_digitByte {d : Nat} (h : d < 10) : isDigit (digitByte d) = true := by
  have h48 : (48 : UInt8).toNat = 48 := rfl
  have h57 : (57 : UInt8).toNat = 57 := rfl
  rw [isDigit, digitByte, Bool.and_eq_true, decide_eq_true_iff, decide_eq_true_iff,
    UInt8.le_iff_toNat_le, UInt8.le_iff_toNat_le, UInt8.toNat_ofNat']
  omega

theorem decimal_of_lt {n : Nat} (h : n < 10) : decimal n = [digitByte n] := by
  rw [decimal, Nat.toDigits_of_lt_base h, List.map_singleton, Nat.toNat_digitChar_of_lt_ten h,
    digitByte]

theorem decimal_of_le {n : Nat} (h : 10 ≤ n) :
    decimal n = decimal (n / 10) ++ [digitByte (n % 10)] := by
  have hdigit : n % 10 < 10 := Nat.mod_lt n (by decide)
  rw [decimal, Nat.toDigits_of_base_le (by decide) h, List.map_append, List.map_singleton,
    Nat.toNat_digitChar_of_lt_ten hdigit]
  rfl

theorem decimal_ne_nil (n : Nat) : decimal n ≠ [] := by
  rcases Nat.lt_or_ge n 10 with h | h
  · simp [decimal_of_lt h]
  · simp [decimal_of_le h]

theorem isDigit_of_mem_decimal {n : Nat} {byte : UInt8} (h : byte ∈ decimal n) :
    isDigit byte = true := by
  induction n using Nat.strongRecOn with
  | ind n ih =>
      rcases Nat.lt_or_ge n 10 with hn | hn
      · rw [decimal_of_lt hn, List.mem_singleton] at h
        exact h ▸ isDigit_digitByte hn
      · rw [decimal_of_le hn, List.mem_append, List.mem_singleton] at h
        rcases h with h | rfl
        · exact ih (n / 10) (by omega) h
        · exact isDigit_digitByte (Nat.mod_lt n (by decide))

@[simp] theorem value_decimal (n : Nat) : value (decimal n) = n := by
  induction n using Nat.strongRecOn with
  | ind n ih =>
      rcases Nat.lt_or_ge n 10 with hn | hn
      · rw [decimal_of_lt hn, ← List.nil_append [digitByte n], value_concat, value_nil,
          digitValue_digitByte hn, Nat.zero_add]
      · rw [decimal_of_le hn, value_concat, digitValue_digitByte (Nat.mod_lt n (by decide)),
          ih (n / 10) (by omega)]
        exact Nat.div_add_mod n 10

/-- Different numbers have different digits. -/
theorem decimal_injective {m n : Nat} (h : decimal m = decimal n) : m = n := by
  rw [← value_decimal m, h, value_decimal]

end Decimal
