/-! # Machine words

* **`Word.size16`, …, `Word.size64`** — how many values words of so many bits have. An unsigned word
  is a number below the size; a signed one has a bit less for its magnitude.
* **`Word.cut32`, `Word.asNat64`** — a number read as a word of another kind. -/

namespace WireCost.Word

/-- The number of values of 16 bits. -/
abbrev size16 : Nat := 65536

/-- The number of values of 31 bits. -/
abbrev size31 : Nat := 2147483648

/-- The number of values of 32 bits. -/
abbrev size32 : Nat := 4294967296

/-- The number of values of 63 bits. -/
abbrev size63 : Nat := 9223372036854775808

/-- The number of values of 64 bits. -/
abbrev size64 : Nat := 18446744073709551616

/-- Whether a number is a signed word of 32 bits. -/
def IsInt32 (n : Int) : Prop := -2147483648 ≤ n ∧ n < 2147483648

instance (n : Int) : Decidable (IsInt32 n) := inferInstanceAs (Decidable (_ ∧ _))

/-- Whether a number is a signed word of 64 bits. -/
def IsInt64 (n : Int) : Prop := -9223372036854775808 ≤ n ∧ n < 9223372036854775808

instance (n : Int) : Decidable (IsInt64 n) := inferInstanceAs (Decidable (_ ∧ _))

/-- The signed word of 32 bits that a wider word is cut down to. -/
def cut32 (n : Int) : Int := n.bmod size32

/-- The unsigned word of 64 bits that a signed number is read as. -/
def asNat64 (n : Int) : Nat := (n % size64).toNat

/-- A natural number read as an unsigned word is itself. -/
theorem asNat64_ofNat {n : Nat} (h : n < size64) : asNat64 n = n := by
  simp only [asNat64, size64] at *; omega

/-- A signed word that is cut down stays the same. -/
theorem cut32_of_isInt32 {n : Int} (h : IsInt32 n) : cut32 n = n := by
  simp only [cut32, IsInt32, size32, Int.bmod] at *; omega

/-- What is cut down is a signed word. -/
theorem isInt32_cut32 (n : Int) : IsInt32 (cut32 n) := by
  simp only [cut32, IsInt32, size32, Int.bmod]; omega

end WireCost.Word
