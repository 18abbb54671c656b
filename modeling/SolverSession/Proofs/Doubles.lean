import Mathlib
import SolverSession.Model

/-!
# Special doubles

The doubles that are neither finite nor numbers, and the two zeros, told apart by their bits.
-/
namespace SolverSession

open Float.Model Float.Model.UnpackedFloat

theorem float_eq_of_bits {x y : Float} (h : x.toBits.toBitVec = y.toBits.toBitVec) : x = y := by
  obtain ⟨⟨⟨b⟩,hb⟩⟩ := x
  obtain ⟨⟨⟨c⟩,hc⟩⟩ := y
  obtain rfl : b = c := h
  rfl

theorem ofBits_toBits (x : Float) : Float.ofBits x.toBits = x :=
  float_eq_of_bits (pack_unpack_of_valid x.toModel.valid)

/-- Without a mantissa the exponent leaves only the sign open. -/
theorem bits_of_mantissa_zero {b : BitVec 64} (hm : @unpackMantissa .binary64 b = 0#_) :
    b.toNat = (@unpackExponent .binary64 b).toNat * 2 ^ 52 ∨
      b.toNat = 2 ^ 63 + (@unpackExponent .binary64 b).toNat * 2 ^ 52 := by
  have hexponent : (@unpackExponent .binary64 b).toNat = b.toNat / 2 ^ 52 % 2 ^ 11 := by
    simp [unpackExponent, Nat.shiftRight_eq_div_pow]
  have hmantissa : b.toNat % 2 ^ 52 = 0 := by
    simpa [unpackMantissa] using congrArg BitVec.toNat hm
  have hlt := b.isLt
  omega

/-! ## Infinities -/

theorem bits_of_infinity {b : BitVec 64} (he : @unpackExponent .binary64 b = -1#_)
    (hm : @unpackMantissa .binary64 b = 0#_) :
    b = 0x7ff0000000000000#64 ∨ b = 0xfff0000000000000#64 := by
  have hbits := bits_of_mantissa_zero hm
  rw [he] at hbits
  exact hbits.imp BitVec.eq_of_toNat_eq BitVec.eq_of_toNat_eq

theorem isFinite_or (x : Float) :
    x.isFinite = true ∨ x.isNaN = true ∨ x = unboundedAbove ∨ x = unboundedBelow := by
  simp only [Float.isFinite, Float.isNaN, Float.Model.isFinite, Float.Model.isNaN,
    Float.Model.unpack, UnpackedFloat.unpack]
  split
  case isTrue he =>
    split
    case isTrue hm =>
      rcases bits_of_infinity he hm with h | h
      · exact .inr (.inr (.inl (float_eq_of_bits h)))
      · exact .inr (.inr (.inr (float_eq_of_bits h)))
    case isFalse => exact .inr (.inl rfl)
  case isFalse =>
    left
    split
    · split <;> rfl
    · rfl

theorem not_isNaN_of_isFinite {x : Float} (h : x.isFinite = true) : x.isNaN = false := by
  rw [Float.isFinite, Float.Model.isFinite] at h
  rw [Float.isNaN, Float.Model.isNaN]
  cases hx : x.toModel.unpack <;> simp_all [UnpackedFloat.isFinite, UnpackedFloat.isNaN]

/-! ## Zeros -/

def negativeZero : Float := Float.ofBits 0x8000000000000000

theorem bits_of_zero {b : BitVec 64} (he : @unpackExponent .binary64 b = 0#_)
    (hm : @unpackMantissa .binary64 b = 0#_) : b = 0#64 ∨ b = 0x8000000000000000#64 := by
  have hbits := bits_of_mantissa_zero hm
  rw [he] at hbits
  exact hbits.imp BitVec.eq_of_toNat_eq BitVec.eq_of_toNat_eq

theorem unpack_of_beq_zero {x : Float} (h : (x == 0) = true) :
    ∃ sign, x.toModel.unpack = .zero sign := by
  have hzero : (0 : Float).toModel.unpack = .zero .positive := rfl
  change (x.toModel.unpack.compare (0 : Float).toModel.unpack == some .eq) = true at h
  rw [hzero] at h
  cases hx : x.toModel.unpack with
  | zero sign => exact ⟨sign,rfl⟩
  | notANumber => rw [hx] at h; cases h
  | infinity sign => rw [hx] at h; cases sign <;> cases h
  | finite sign => rw [hx] at h; cases sign <;> cases h

theorem beq_zero_iff {x : Float} : (x == 0) = true ↔ x = 0 ∨ x = negativeZero := by
  constructor
  · intro h
    obtain ⟨sign,hx⟩ := unpack_of_beq_zero h
    simp only [Float.Model.unpack, UnpackedFloat.unpack] at hx
    split at hx
    · split at hx <;> cases hx
    · split at hx
      case isTrue he =>
        split at hx
        case isTrue hm =>
          rcases bits_of_zero he hm with h | h
          · exact .inl (float_eq_of_bits h)
          · exact .inr (float_eq_of_bits h)
        case isFalse => cases hx
      case isFalse => cases hx
  · rintro (rfl | rfl) <;> decide

/-- The double without the sign of a zero. -/
def plainZero (x : Float) : Float := if x = negativeZero then 0 else x

theorem ite_beq_zero (x : Float) : (if x == 0 then 0 else x) = plainZero x := by
  unfold plainZero
  by_cases hx : x = 0
  · subst hx
    decide
  · by_cases hneg : x = negativeZero
    · rw [if_pos (beq_zero_iff.mpr (.inr hneg)), if_pos hneg]
    · have hnot : ¬(x == 0) = true := fun h => (beq_zero_iff.mp h).elim hx hneg
      rw [if_neg hnot, if_neg hneg]

/-! ## Sums with a zero -/

/-- A zero of either sign leaves every other double as it is, also one that is not a number. -/
theorem zero_add_of_ne_zero {z x : Float} (hz : (z == 0) = true) (hx : (x == 0) = false) :
    z + x = x := by
  obtain ⟨sign,hz⟩ := unpack_of_beq_zero hz
  have hsum : UnpackedFloat.add .binary64 z.toModel.unpack x.toModel.unpack =
      x.toModel.unpack := by
    rw [hz]
    cases hxu : x.toModel.unpack with
    | notANumber => rfl
    | infinity s => rfl
    | finite s m e hm => rfl
    | zero s =>
      have hzero : (0 : Float).toModel.unpack = .zero .positive := rfl
      change (x.toModel.unpack.compare (0 : Float).toModel.unpack == some .eq) = false at hx
      rw [hxu, hzero] at hx
      cases s <;> cases hx
  apply float_eq_of_bits
  change UnpackedFloat.pack .binary64
    (UnpackedFloat.add .binary64 z.toModel.unpack x.toModel.unpack) = _
  rw [hsum]
  exact pack_unpack_of_valid x.toModel.valid

theorem zero_add_zero_beq {z w : Float} (hz : (z == 0) = true) (hw : (w == 0) = true) :
    (z + w == 0) = true := by
  rcases beq_zero_iff.mp hz with rfl | rfl <;> rcases beq_zero_iff.mp hw with rfl | rfl <;> decide

end SolverSession
