import Mathlib.Algebra.Ring.Int.Defs
import Mathlib.Algebra.Ring.Nat
import Mathlib.Data.List.TakeWhile
import Mathlib.Tactic.Common

/-! Strings as the bytes they are made of, and the characters the program tests for. -/

namespace QtCesium

abbrev Bytes := List UInt8

/-- The bytes of a literal of the program. -/
def text (s : String) : Bytes := s.toUTF8.data.toList

def newline : UInt8 := 0x0a
def comment : UInt8 := 0x23
def equalsSign : UInt8 := 0x3d
def singleQuote : UInt8 := 0x27
def doubleQuote : UInt8 := 0x22

/-- `std::isspace` in the C locale: the space and the five control characters from tab on. -/
def isspace (ch : UInt8) : Bool := ch == 0x20 || (0x09 ≤ ch && ch ≤ 0x0d)

/-- What a `const char*` points to: the bytes before the terminating NUL. -/
structure CString where
  bytes : Bytes
  noNul : 0 ∉ bytes

/-- A `std::string` read through `c_str()`. -/
def cStr (s : Bytes) : CString where
  bytes := s.takeWhile (· != 0)
  noNul := fun h => absurd (List.mem_takeWhile_imp h) (by decide)

@[simp] theorem cStr_cString (s : CString) : cStr s.bytes = s := by
  have h : s.bytes.takeWhile (· != 0) = s.bytes := by
    rw [List.takeWhile_eq_self_iff]
    intro ch hch
    simpa using fun heq : ch = 0 => s.noNul (heq ▸ hch)
  simp only [cStr, h]

theorem cStr_of_notMem {s : Bytes} (h : 0 ∉ s) : (cStr s).bytes = s :=
  congrArg CString.bytes (cStr_cString ⟨s, h⟩)

/-- `std::size_t` subtraction wraps below zero. -/
def sizeSub (a b : Nat) : Nat := if b ≤ a then a - b else a + 2 ^ 64 - b

/-- `std::string::substr` at a position inside the string. -/
def substr (s : Bytes) (position count : Nat) : Bytes := (s.drop position).take count

end QtCesium
