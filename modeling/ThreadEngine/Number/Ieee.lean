set_option autoImplicit false

/-!
# IEEE binary interchange formats, read from their bits

A float or a double is kept as the bit pattern it was written with, so that NaN payloads and the
sign of a zero survive every copy.  This module reads such a pattern: its fields, whether it is a
NaN or a zero, and the numeric comparison, under which a NaN differs from everything and the two
zeros are equal.
-/

namespace ThreadEngine.Number

/-- A binary interchange format: the widths of its fraction and exponent fields. -/
structure Ieee where
  fractionBits : Nat
  exponentBits : Nat
  deriving DecidableEq, Repr, Inhabited

namespace Ieee

/-- The 32-bit format. -/
def binary32 : Ieee := ⟨23, 8⟩

/-- The 64-bit format. -/
def binary64 : Ieee := ⟨52, 11⟩

/-- The fraction field of a bit pattern. -/
def fraction (f : Ieee) (bits : Nat) : Nat := bits % Nat.pow 2 f.fractionBits

/-- The biased exponent field of a bit pattern. -/
def exponent (f : Ieee) (bits : Nat) : Nat :=
  bits / Nat.pow 2 f.fractionBits % Nat.pow 2 f.exponentBits

/-- Whether the sign bit is set. -/
def negative (f : Ieee) (bits : Nat) : Bool :=
  bits / Nat.pow 2 (f.fractionBits + f.exponentBits) % 2 == 1

/-- The exponent field of infinities and NaNs. -/
def topExponent (f : Ieee) : Nat := Nat.pow 2 f.exponentBits - 1

/-- Whether the pattern is a NaN, whatever its payload. -/
def isNaN (f : Ieee) (bits : Nat) : Bool :=
  f.exponent bits == f.topExponent && f.fraction bits != 0

/-- Whether the pattern is an infinity of either sign. -/
def isInfinite (f : Ieee) (bits : Nat) : Bool :=
  f.exponent bits == f.topExponent && f.fraction bits == 0

/-- Whether the pattern is a zero of either sign. -/
def isZero (f : Ieee) (bits : Nat) : Bool :=
  f.exponent bits == 0 && f.fraction bits == 0

/-- Numeric equality: never with a NaN, and the two zeros are the same number. -/
def sameNumber (f : Ieee) (a b : Nat) : Bool :=
  !f.isNaN a && !f.isNaN b && (a == b || f.isZero a && f.isZero b)

theorem sameNumber_iff (f : Ieee) (a b : Nat) :
    f.sameNumber a b = true ↔
      f.isNaN a = false ∧ f.isNaN b = false ∧
        (a = b ∨ f.isZero a = true ∧ f.isZero b = true) := by
  simp [sameNumber, and_assoc]

/-- The significand, with the hidden bit of a normal number. -/
def significand (f : Ieee) (bits : Nat) : Nat :=
  if f.exponent bits = 0 then f.fraction bits
  else Nat.pow 2 f.fractionBits + f.fraction bits

/-- The power of two that the significand is multiplied by. -/
def scale (f : Ieee) (bits : Nat) : Int :=
  (max (f.exponent bits) 1 : Int) - (Nat.pow 2 (f.exponentBits - 1) - 1 : Int) - f.fractionBits

/-- Whether the number below this one is only half as far away as the number above it, which
happens at the powers of two. -/
def narrowBelow (f : Ieee) (bits : Nat) : Bool :=
  f.fraction bits == 0 && 1 < f.exponent bits

end Ieee

end ThreadEngine.Number
