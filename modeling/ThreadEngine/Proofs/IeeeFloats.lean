import ThreadEngine.Value
import Mathlib

set_option autoImplicit false

/-!
# Bit patterns and floats

The language compares floats and doubles by their bits (`sameFloat`, `sameDouble`).  The standard
library has floats of its own, with a model in which a bit pattern is unpacked into a sign, a
significand and an exponent, and compared as IEEE 754 says.  The two agree on every bit pattern
(`sameFloat_eq`, `sameDouble_eq`): a pattern that is a number is packed as it was (`pack_unpack`),
so numbers with different patterns differ, but for the two zeros.
-/

namespace ThreadEngine.Number.Ieee

open Float.Model (Format UnpackedFloat)
open Float.Model.UnpackedFloat

/-- The field widths of a format. -/
def ofFormat (spec : Format) : Ieee := ⟨spec.mantissaBitsWithoutImplicit, spec.exponentBits⟩

variable {spec : Format}

/-! ## Fields -/

theorem toNat_unpackMantissa (b : BitVec spec.numBits) :
    (unpackMantissa b).toNat = (ofFormat spec).fraction b.toNat := by
  have positive := spec.hm
  simp only [unpackMantissa, BitVec.toNat_cast, BitVec.extractLsb_toNat, fraction, ofFormat,
    Nat.shiftRight_zero, Nat.pow_eq]
  congr 2
  omega

theorem toNat_unpackExponent (b : BitVec spec.numBits) :
    (unpackExponent b).toNat = (ofFormat spec).exponent b.toNat := by
  have positive := spec.he
  simp only [unpackExponent, BitVec.toNat_cast, BitVec.extractLsb_toNat, exponent, ofFormat,
    Nat.shiftRight_eq_div_pow, Nat.pow_eq]
  congr 2
  omega

theorem toNat_unpackSign (b : BitVec spec.numBits) :
    (unpackSign b).toNat =
      b.toNat / 2 ^ (spec.mantissaBitsWithoutImplicit + spec.exponentBits) := by
  have small : b.toNat / 2 ^ (spec.mantissaBitsWithoutImplicit + spec.exponentBits) < 2 := by
    rw [Nat.div_lt_iff_lt_mul (Nat.two_pow_pos _), ← Nat.pow_succ']
    have width : spec.numBits = spec.mantissaBitsWithoutImplicit + spec.exponentBits + 1 := by
      simp only [Format.numBits]
      omega
    exact lt_of_lt_of_eq b.isLt (congrArg (2 ^ ·) width)
  simp only [unpackSign, BitVec.toNat_cast, BitVec.extractLsb_toNat, Nat.shiftRight_eq_div_pow,
    Nat.sub_self, Nat.zero_add, Nat.pow_one]
  exact Nat.mod_eq_of_lt small

/-- A bit pattern is its three fields. -/
theorem eq_iff_fields (a b : BitVec spec.numBits) :
    a = b ↔ unpackSign a = unpackSign b ∧ unpackExponent a = unpackExponent b ∧
      unpackMantissa a = unpackMantissa b := by
  constructor
  · rintro rfl
    exact ⟨rfl, rfl, rfl⟩
  · rintro ⟨sign_eq, exponent_eq, fraction_eq⟩
    have sign_eq := congrArg BitVec.toNat sign_eq
    have exponent_eq := congrArg BitVec.toNat exponent_eq
    have fraction_eq := congrArg BitVec.toNat fraction_eq
    rw [toNat_unpackSign, toNat_unpackSign, Nat.pow_add, ← Nat.div_div_eq_div_mul,
      ← Nat.div_div_eq_div_mul] at sign_eq
    rw [toNat_unpackExponent, toNat_unpackExponent] at exponent_eq
    rw [toNat_unpackMantissa, toNat_unpackMantissa] at fraction_eq
    have upper : a.toNat / 2 ^ spec.mantissaBitsWithoutImplicit =
        b.toNat / 2 ^ spec.mantissaBitsWithoutImplicit := by
      rw [← Nat.div_add_mod (a.toNat / _) (2 ^ spec.exponentBits),
        ← Nat.div_add_mod (b.toNat / _) (2 ^ spec.exponentBits), sign_eq]
      exact congrArg _ exponent_eq
    apply BitVec.eq_of_toNat_eq
    rw [← Nat.div_add_mod a.toNat (2 ^ spec.mantissaBitsWithoutImplicit),
      ← Nat.div_add_mod b.toNat (2 ^ spec.mantissaBitsWithoutImplicit), upper]
    exact congrArg _ fraction_eq

theorem unpackSign_packComponents (sign : Sign) (exponent : BitVec spec.exponentBits)
    (mantissa : BitVec spec.mantissaBitsWithoutImplicit) :
    unpackSign (packComponents spec sign exponent mantissa) = sign.toBitVec := by
  ext i hi
  have first : i = 0 := by omega
  subst first
  have above : ¬ spec.mantissaBitsWithoutImplicit + spec.exponentBits <
      spec.mantissaBitsWithoutImplicit := by omega
  simp [unpackSign, packComponents, BitVec.getLsbD_append, BitVec.getElem_append, above]

/-- A bit pattern is put together from its fields. -/
theorem packComponents_eq {b : BitVec spec.numBits} {exponent : BitVec spec.exponentBits}
    {mantissa : BitVec spec.mantissaBitsWithoutImplicit} (exponent_eq : unpackExponent b = exponent)
    (mantissa_eq : unpackMantissa b = mantissa) :
    packComponents spec (Sign.ofBitVec (unpackSign b)) exponent mantissa = b := by
  rw [eq_iff_fields, unpackSign_packComponents, unpackExponent_packComponents,
    unpackMantissa_packComponents]
  refine ⟨?_, exponent_eq.symm, mantissa_eq.symm⟩
  generalize unpackSign b = sign
  revert sign
  decide

/-! ## Packing and unpacking -/

/-- The significand of a normal number, with its hidden bit. -/
theorem toNat_hidden_append {w : Nat} (v : BitVec w) : (1#1 ++ v).toNat = 2 ^ w + v.toNat := by
  have joined := Nat.two_pow_add_eq_or_of_lt v.isLt 1
  simpa [BitVec.toNat_append, Nat.shiftLeft_eq] using joined.symm

/-- A bit pattern that is a number is packed as it was. -/
theorem pack_unpack (two_le : 2 ≤ spec.exponentBits) {b : BitVec spec.numBits}
    (number : unpack spec b ≠ .notANumber) : pack spec (unpack spec b) = b := by
  have four_le : 2 ^ 2 ≤ 2 ^ spec.exponentBits := Nat.pow_le_pow_right (by omega) two_le
  have fraction_lt := (unpackMantissa b).isLt
  have exponent_lt := (unpackExponent b).isLt
  unfold unpack at number ⊢
  dsimp only at number ⊢
  split at number
  · rename_i top
    split at number
    · rename_i whole
      rw [if_pos top, if_pos whole]
      exact packComponents_eq top whole
    · exact absurd rfl number
  · rename_i below
    rw [if_neg below]
    have below : (unpackExponent b).toNat + 1 < 2 ^ spec.exponentBits := by
      have other : (unpackExponent b).toNat ≠ 2 ^ spec.exponentBits - 1 := by
        intro same
        apply below
        apply BitVec.eq_of_toNat_eq
        rw [same, BitVec.neg_one_eq_allOnes, BitVec.toNat_allOnes]
      omega
    split
    · rename_i least
      split
      · rename_i whole
        exact packComponents_eq least whole
      · rename_i broken
        have positive : (unpackMantissa b).toNat ≠ 0 := by
          intro zero
          exact broken (BitVec.eq_of_toNat_eq zero)
        have short : (unpackMantissa b).toNat.log2 < spec.mantissaBitsWithoutImplicit :=
          (Nat.log2_lt positive).mpr fraction_lt
        have zero : (unpackExponent b).toNat = 0 := by rw [least]; simp
        have biased : ((((unpackExponent b).toNat : Int) -
            (spec.exponentBias + spec.mantissaBitsWithoutImplicit) + 1) +
            spec.exponentBias + spec.mantissaBitsWithoutImplicit).toNat = 1 := by omega
        simp only [pack, biased]
        rw [if_neg (by omega), if_neg (by simp only [Format.mantissaBits]; omega),
          BitVec.ofNat_toNat, BitVec.setWidth_eq]
        exact packComponents_eq least rfl
    · rename_i more
      have log_eq : (1#1 ++ unpackMantissa b).toNat.log2 = spec.mantissaBitsWithoutImplicit := by
        rw [toNat_hidden_append, Nat.log2_eq_iff (by omega)]
        omega
      have biased : ((((unpackExponent b).toNat : Int) -
          (spec.exponentBias + spec.mantissaBitsWithoutImplicit)) +
          spec.exponentBias + spec.mantissaBitsWithoutImplicit).toNat =
            (unpackExponent b).toNat := by omega
      simp only [pack, biased, log_eq]
      rw [if_neg (by omega), if_pos (by simp only [Format.mantissaBits]; omega),
        BitVec.ofNat_toNat, BitVec.setWidth_eq]
      refine packComponents_eq rfl ?_
      apply BitVec.eq_of_toNat_eq
      rw [BitVec.toNat_ofNat, toNat_hidden_append, Nat.add_mod_left, Nat.mod_eq_of_lt fraction_lt]

theorem unpack_packedNaN (spec : Format) : unpack spec (packedNaN spec) = .notANumber := by
  have width := spec.hm
  have broken : (1#(spec.mantissaBitsWithoutImplicit) <<< (spec.mantissaBitsWithoutImplicit - 1)) ≠
      0#(spec.mantissaBitsWithoutImplicit) := by
    intro zero
    have bit := congrArg (·.getLsbD (spec.mantissaBitsWithoutImplicit - 1)) zero
    simp only [BitVec.getLsbD_shiftLeft, BitVec.getLsbD_zero] at bit
    simp at bit
    omega
  simp [unpack, packedNaN, broken]

/-- Packing forgets at most the payload of a NaN. -/
theorem unpack_pack_unpack (two_le : 2 ≤ spec.exponentBits) (b : BitVec spec.numBits) :
    unpack spec (pack spec (unpack spec b)) = unpack spec b := by
  by_cases number : unpack spec b = .notANumber
  · rw [number]
    exact unpack_packedNaN spec
  · rw [pack_unpack two_le number]

/-! ## Comparing -/

/-- Unpacked floats are equal if they are the same and no NaN, or if both are zeros. -/
theorem beq_iff (x y : UnpackedFloat) :
    x.beq y = true ↔
      x = y ∧ x ≠ .notANumber ∨ (∃ s, x = .zero s) ∧ ∃ s, y = .zero s := by
  have signs (s₁ s₂ : Sign) : compare s₁ s₂ = .eq ↔ s₁ = s₂ := by
    cases s₁ <;> cases s₂ <;> simp [compare]
  cases x with
  | notANumber => simp [UnpackedFloat.beq, UnpackedFloat.compare]
  | infinity s =>
    cases y with
    | infinity s' => simp [UnpackedFloat.beq, UnpackedFloat.compare, signs]
    | _ => cases s <;> simp [UnpackedFloat.beq, UnpackedFloat.compare]
  | zero s =>
    cases y with
    | notANumber => simp [UnpackedFloat.beq, UnpackedFloat.compare]
    | zero s' => simp [UnpackedFloat.beq, UnpackedFloat.compare]
    | infinity s' => cases s' <;> simp [UnpackedFloat.beq, UnpackedFloat.compare]
    | finite s' => cases s' <;> simp [UnpackedFloat.beq, UnpackedFloat.compare]
  | finite s m e _ =>
    cases y with
    | notANumber => simp [UnpackedFloat.beq, UnpackedFloat.compare]
    | infinity s' => cases s <;> cases s' <;> simp [UnpackedFloat.beq, UnpackedFloat.compare]
    | zero s' => cases s <;> simp [UnpackedFloat.beq, UnpackedFloat.compare]
    | finite s' m' e' _ =>
      cases s <;> cases s' <;>
        simp [UnpackedFloat.beq, UnpackedFloat.compare, Ordering.then_eq_eq, and_comm]

/-- The exponent field of infinities and NaNs has all its bits set. -/
theorem unpackExponent_eq_top_iff (b : BitVec spec.numBits) :
    unpackExponent b = -1#(spec.exponentBits) ↔
      (ofFormat spec).exponent b.toNat = (ofFormat spec).topExponent := by
  rw [← BitVec.toNat_inj, toNat_unpackExponent, BitVec.neg_one_eq_allOnes, BitVec.toNat_allOnes]
  rfl

theorem unpackExponent_eq_zero_iff (b : BitVec spec.numBits) :
    unpackExponent b = 0#(spec.exponentBits) ↔ (ofFormat spec).exponent b.toNat = 0 := by
  rw [← BitVec.toNat_inj, toNat_unpackExponent, BitVec.toNat_zero]

theorem unpackMantissa_eq_zero_iff (b : BitVec spec.numBits) :
    unpackMantissa b = 0#(spec.mantissaBitsWithoutImplicit) ↔
      (ofFormat spec).fraction b.toNat = 0 := by
  rw [← BitVec.toNat_inj, toNat_unpackMantissa, BitVec.toNat_zero]

theorem topExponent_pos (spec : Format) : 0 < (ofFormat spec).topExponent := by
  have two_le : 2 ^ 1 ≤ 2 ^ spec.exponentBits := Nat.pow_le_pow_right (by omega) spec.he
  simp only [topExponent, ofFormat, Nat.pow_eq]
  omega

theorem unpack_eq_notANumber_iff (b : BitVec spec.numBits) :
    unpack spec b = .notANumber ↔ (ofFormat spec).isNaN b.toNat = true := by
  simp only [isNaN, Bool.and_eq_true, beq_iff_eq, bne_iff_ne, ← unpackExponent_eq_top_iff, ne_eq,
    ← unpackMantissa_eq_zero_iff]
  unfold unpack
  dsimp only
  split
  · rename_i top
    split
    · rename_i whole
      simp [whole]
    · rename_i broken
      simp [top, broken]
  · rename_i below
    split
    · split
      · simp [below]
      · simp [below]
    · simp [below]

theorem unpack_eq_zero_iff (b : BitVec spec.numBits) :
    (∃ s, unpack spec b = .zero s) ↔ (ofFormat spec).isZero b.toNat = true := by
  have positive := topExponent_pos spec
  simp only [isZero, Bool.and_eq_true, beq_iff_eq, ← unpackExponent_eq_zero_iff,
    ← unpackMantissa_eq_zero_iff]
  unfold unpack
  dsimp only
  split
  · rename_i top
    have more : unpackExponent b ≠ 0#(spec.exponentBits) := by
      intro least
      rw [unpackExponent_eq_top_iff] at top
      rw [unpackExponent_eq_zero_iff] at least
      omega
    split
    · simp [more]
    · simp [more]
  · split
    · rename_i least
      split
      · rename_i whole
        simp [least, whole]
      · rename_i broken
        simp [broken]
    · rename_i more
      simp [more]

theorem isNaN_eq_false_of_isZero {bits : Nat} (zero : (ofFormat spec).isZero bits = true) :
    (ofFormat spec).isNaN bits = false := by
  simp only [isZero, Bool.and_eq_true, beq_iff_eq] at zero
  simp [isNaN, zero.2]

/-- Unpacked, two bit patterns compare as equal exactly if they are the same number. -/
theorem unpack_beq (two_le : 2 ≤ spec.exponentBits) (a b : BitVec spec.numBits) :
    (unpack spec a).beq (unpack spec b) = (ofFormat spec).sameNumber a.toNat b.toNat := by
  rw [Bool.eq_iff_iff, beq_iff, sameNumber_iff, unpack_eq_zero_iff, unpack_eq_zero_iff]
  constructor
  · rintro (⟨same, number⟩ | ⟨zero, zero'⟩)
    · have number' := same ▸ number
      have bits_eq : a = b := by
        rw [← pack_unpack two_le number, same, pack_unpack two_le number']
      rw [ne_eq, unpack_eq_notANumber_iff, Bool.not_eq_true] at number number'
      exact ⟨number, number', .inl (congrArg BitVec.toNat bits_eq)⟩
    · exact ⟨isNaN_eq_false_of_isZero zero, isNaN_eq_false_of_isZero zero', .inr ⟨zero, zero'⟩⟩
  · rintro ⟨number, _, same | zeros⟩
    · left
      rw [BitVec.eq_of_toNat_eq same, ne_eq, unpack_eq_notANumber_iff, ← same, number]
      exact ⟨rfl, nofun⟩
    · exact .inr zeros

end ThreadEngine.Number.Ieee

namespace ThreadEngine

open Number.Ieee
open Float.Model.UnpackedFloat (unpack pack)

/-- Floats are compared as IEEE 754 says. -/
theorem sameFloat_eq (a b : UInt32) : sameFloat a b = (Float32.ofBits a == Float32.ofBits b) := by
  have two_le : 2 ≤ Float.Model.Format.binary32.exponentBits := by decide
  have compared : (Float32.ofBits a == Float32.ofBits b) =
      (unpack .binary32 (pack .binary32 (unpack .binary32 a.toBitVec))).beq
        (unpack .binary32 (pack .binary32 (unpack .binary32 b.toBitVec))) := rfl
  rw [compared, unpack_pack_unpack two_le, unpack_pack_unpack two_le, unpack_beq two_le]
  rfl

/-- Doubles are compared as IEEE 754 says. -/
theorem sameDouble_eq (a b : UInt64) : sameDouble a b = (Float.ofBits a == Float.ofBits b) := by
  have two_le : 2 ≤ Float.Model.Format.binary64.exponentBits := by decide
  have compared : (Float.ofBits a == Float.ofBits b) =
      (unpack .binary64 (pack .binary64 (unpack .binary64 a.toBitVec))).beq
        (unpack .binary64 (pack .binary64 (unpack .binary64 b.toBitVec))) := rfl
  rw [compared, unpack_pack_unpack two_le, unpack_pack_unpack two_le, unpack_beq two_le]
  rfl

end ThreadEngine
