import QtCesium.Bytes
import QtCesium.LibraryDecimal

/-! `std::strtoll` with base 10 in the C locale, and the numbers it reads out of a whole string. -/

namespace QtCesium

open Decimal

def plusSign : UInt8 := 0x2b
def minusSign : UInt8 := 0x2d

def longLongMin : Int := -2 ^ 63
def longLongMax : Int := 2 ^ 63 - 1

/-- Out of range, `strtoll` returns the nearest `long long` and sets `errno`. -/
def toLongLong (n : Int) : Int := max longLongMin (min n longLongMax)

/-- The optional sign and what follows it. -/
def readSign : Bytes → Bool × Bytes
  | [] => (false, [])
  | ch :: rest =>
      if ch = minusSign then (true, rest) else if ch = plusSign then (false, rest) else (false, ch :: rest)

def signed (negative : Bool) (digits : Bytes) : Int := if negative then -value digits else value digits

/-- The number and the text at `*endptr`, which is the whole text when there are no digits. -/
def strtoll (nptr : CString) : Int × Bytes :=
  let subject := readSign (nptr.bytes.dropWhile isspace)
  let digits := subject.2.takeWhile isDigit
  if digits = [] then (0, nptr.bytes)
  else (toLongLong (signed subject.1 digits), subject.2.dropWhile isDigit)

/-- What an output stream writes for a `long long`. -/
def formatInt (n : Int) : Bytes :=
  if n < 0 then minusSign :: decimal n.natAbs else decimal n.natAbs

/-- All of `s` is a numeral of `n`: blanks, an optional sign and digits. -/
def Numeral (s : Bytes) (n : Int) : Prop :=
  ∃ blanks sign digits, s = blanks ++ sign ++ digits ∧ (∀ ch ∈ blanks, isspace ch = true) ∧
    digits ≠ [] ∧ (∀ ch ∈ digits, isDigit ch = true) ∧
    ((sign = [] ∨ sign = [plusSign]) ∧ n = value digits ∨ sign = [minusSign] ∧ n = -value digits)

theorem isspace_of_isDigit {ch : UInt8} (h : isDigit ch = true) : isspace ch = false := by
  have h48 : (48 : UInt8).toNat = 48 := rfl
  have h13 : (0x0d : UInt8).toNat = 13 := rfl
  rw [isDigit, Bool.and_eq_true, decide_eq_true_iff, UInt8.le_iff_toNat_le] at h
  have hne : ch ≠ 0x20 := by
    rintro rfl
    exact absurd h.1 (by decide)
  have hgt : ¬ch ≤ 0x0d := by
    rw [UInt8.le_iff_toNat_le]
    omega
  simp [isspace, hne, hgt]

/-- A digit string without a sign starts with neither sign. -/
theorem readSign_digits {digits : Bytes} (hdigits : ∀ ch ∈ digits, isDigit ch = true) :
    readSign digits = (false, digits) := by
  cases digits with
  | nil => rfl
  | cons ch rest =>
      have hdigit := hdigits ch List.mem_cons_self
      have hminus : ch ≠ minusSign := by
        rintro rfl
        exact absurd hdigit (by decide)
      have hplus : ch ≠ plusSign := by
        rintro rfl
        exact absurd hdigit (by decide)
      rw [readSign, if_neg hminus, if_neg hplus]

theorem readSign_eq (s : Bytes) :
    ∃ sign, s = sign ++ (readSign s).2 ∧
      ((sign = [] ∨ sign = [plusSign]) ∧ (readSign s).1 = false ∨
        sign = [minusSign] ∧ (readSign s).1 = true) := by
  cases s with
  | nil => exact ⟨[], rfl, Or.inl ⟨Or.inl rfl, rfl⟩⟩
  | cons ch rest =>
      rw [readSign]
      split_ifs with hminus hplus
      · exact ⟨[ch], rfl, Or.inr ⟨by rw [hminus], rfl⟩⟩
      · exact ⟨[ch], rfl, Or.inl ⟨Or.inr (by rw [hplus]), rfl⟩⟩
      · exact ⟨[], rfl, Or.inl ⟨Or.inl rfl, rfl⟩⟩

/-- What `strtoll` reads before the digits of a numeral. -/
theorem Numeral.subject {s : Bytes} {n : Int} (h : Numeral s n) :
    ∃ digits, digits ≠ [] ∧ (∀ ch ∈ digits, isDigit ch = true) ∧
      (readSign (s.dropWhile isspace)).2 = digits ∧
      n = signed (readSign (s.dropWhile isspace)).1 digits := by
  obtain ⟨blanks, sign, digits, rfl, hblanks, hne, hdigits, hsign⟩ := h
  obtain ⟨first, rest, rfl⟩ := List.exists_cons_of_ne_nil hne
  have hfirst : isspace first = false := isspace_of_isDigit (hdigits first List.mem_cons_self)
  refine ⟨first :: rest, hne, hdigits, ?_⟩
  rw [List.append_assoc, List.dropWhile_append_of_pos hblanks]
  rcases hsign with ⟨rfl | rfl, rfl⟩ | ⟨rfl, rfl⟩
  · rw [List.nil_append, List.dropWhile_cons_of_neg (by simp [hfirst]), readSign_digits hdigits]
    exact ⟨rfl, rfl⟩
  · exact ⟨rfl, rfl⟩
  · exact ⟨rfl, rfl⟩

/-- A text is the numeral of one number only. -/
theorem Numeral.unique {s : Bytes} {m n : Int} (hm : Numeral s m) (hn : Numeral s n) : m = n := by
  obtain ⟨digits, -, -, rfl, rfl⟩ := hm.subject
  obtain ⟨digits', -, -, rfl, rfl⟩ := hn.subject
  rfl

theorem strtoll_of_numeral {s : CString} {n : Int} (h : Numeral s.bytes n) :
    strtoll s = (toLongLong n, []) := by
  obtain ⟨digits, hne, hdigits, hsubject, rfl⟩ := h.subject
  rw [strtoll, hsubject, List.takeWhile_eq_self_iff.mpr hdigits, if_neg hne,
    List.dropWhile_eq_nil_iff.mpr hdigits]

/-- `*end` is the NUL exactly for the empty string and the numerals. -/
theorem strtoll_rest_eq_nil_iff {s : CString} :
    (strtoll s).2 = [] ↔ s.bytes = [] ∨ ∃ n, Numeral s.bytes n := by
  constructor
  · intro h
    rw [strtoll] at h
    split_ifs at h with hdigits
    · exact Or.inl h
    · obtain ⟨sign, hsplit, hsign⟩ := readSign_eq (s.bytes.dropWhile isspace)
      have hall := List.dropWhile_eq_nil_iff.mp h
      rw [List.takeWhile_eq_self_iff.mpr hall] at hdigits
      have hblanks : ∀ ch ∈ s.bytes.takeWhile isspace, isspace ch = true :=
        fun ch hch => List.mem_takeWhile_imp hch
      have hbytes : s.bytes = s.bytes.takeWhile isspace ++ sign ++
          (readSign (s.bytes.dropWhile isspace)).2 := by
        rw [List.append_assoc, ← hsplit, List.takeWhile_append_dropWhile]
      rcases hsign with ⟨hsign, -⟩ | ⟨hsign, -⟩
      · exact Or.inr ⟨_, _, sign, _, hbytes, hblanks, hdigits, hall, Or.inl ⟨hsign, rfl⟩⟩
      · exact Or.inr ⟨_, _, sign, _, hbytes, hblanks, hdigits, hall, Or.inr ⟨hsign, rfl⟩⟩
  · rintro (h | ⟨n, hn⟩)
    · rw [strtoll, h]
      rfl
    · rw [strtoll_of_numeral hn]

theorem toLongLong_of_mem {n : Int} (hmin : longLongMin ≤ n) (hmax : n ≤ longLongMax) :
    toLongLong n = n := by
  rw [toLongLong]
  omega

/-- What a stream writes for a number is a numeral of it. -/
theorem numeral_formatInt (n : Int) : Numeral (formatInt n) n := by
  have hdigits : ∀ ch ∈ decimal n.natAbs, isDigit ch = true := fun _ hch => isDigit_of_mem_decimal hch
  unfold formatInt
  split_ifs with hnegative
  · refine ⟨[], [minusSign], decimal n.natAbs, rfl, by simp, decimal_ne_nil _, hdigits, Or.inr ⟨rfl, ?_⟩⟩
    rw [value_decimal]
    omega
  · refine ⟨[], [], decimal n.natAbs, rfl, by simp, decimal_ne_nil _, hdigits, Or.inl ⟨Or.inl rfl, ?_⟩⟩
    rw [value_decimal]
    omega

theorem formatInt_injective {m n : Int} (h : formatInt m = formatInt n) : m = n := by
  apply (numeral_formatInt m).unique
  rw [h]
  exact numeral_formatInt n

end QtCesium
