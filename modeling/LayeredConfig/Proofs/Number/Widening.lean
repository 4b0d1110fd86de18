import LayeredConfig.Number.Double
import Mathlib

namespace LayeredConfig.Number

open Float.Model Float.Model.UnpackedFloat

lemma lastPlace_one (n : Nat) : -53 ≤ lastPlace n 1 := by
  have hlog : Nat.log2 1 = 0 := by decide
  simp only [lastPlace, hlog]
  split_ifs
  all_goals omega

lemma exponentUnit_le_nearestBits {n : Nat} (h : n ≠ 0) : exponentUnit ≤ nearestBits n 1 := by
  have hplace := lastPlace_one n
  rw [nearestBits, if_neg h]
  refine Nat.le_min.mpr ⟨?_, by decide⟩
  have hfield : 1 ≤ (lastPlace n 1 + 1074).toNat := by omega
  exact (Nat.le_mul_of_pos_left _ hfield).trans (Nat.le_add_right _ _)

lemma toNat_unpackExponent (b : BitVec Format.binary64.numBits) :
    (unpackExponent b).toNat = b.toNat / exponentUnit % 2048 := by
  simp [unpackExponent, BitVec.extractLsb, Nat.shiftRight_eq_div_pow, exponentUnit]

lemma unpackExponent_toBits {bits : UInt64}
    (h : @unpackExponent .binary64 bits.toBitVec ≠ 0#11) :
    @unpackExponent .binary64 (Float.ofBits bits).toBits.toBitVec ≠ 0#11 := by
  change unpackExponent (UnpackedFloat.pack .binary64 (UnpackedFloat.unpack .binary64 _)) ≠ 0#11
  -- only the bits of what is no number change
  rw [pack_unpack]
  split_ifs
  · simp [packedNaN]
  · exact h

lemma ofBits_ne_zero {bits : UInt64} (h : bits.toNat / exponentUnit % 2048 ≠ 0) :
    (Float.ofBits bits == 0) = false := by
  have hexponent : @unpackExponent .binary64 (Float.ofBits bits).toBits.toBitVec ≠ 0#11 :=
    unpackExponent_toBits fun hnone =>
      h ((toNat_unpackExponent _).symm.trans (congrArg BitVec.toNat hnone))
  by_contra hzero
  obtain ⟨-, -, hzero | ⟨hzero, -⟩ | ⟨hzero, -⟩⟩ :=
    Float.beq_iff_ne_nan_and_eq.mp (Bool.eq_true_of_not_eq_false hzero)
  all_goals exact hexponent (hzero ▸ rfl)

lemma int64Bits_exponent {n : Int64} (h : n ≠ 0) : int64Bits n / exponentUnit % 2048 ≠ 0 := by
  have hne : n.toInt.natAbs ≠ 0 := by
    intro hzero
    exact h (Int64.toInt_inj.mp (Int.natAbs_eq_zero.mp hzero))
  have hlow := exponentUnit_le_nearestBits hne
  have hhigh : nearestBits n.toInt.natAbs 1 ≤ infinityBits := by
    rw [nearestBits, if_neg hne]
    exact Nat.min_le_right _ _
  simp only [int64Bits, signBit, signUnit, exponentUnit, infinityBits] at *
  split_ifs
  all_goals omega

lemma ofInt64_ne_zero {n : Int64} (h : n ≠ 0) : (ofInt64 n == 0) = false := by
  refine ofBits_ne_zero ?_
  have hexponent := int64Bits_exponent h
  rw [UInt64.toNat_ofNat']
  simp only [exponentUnit] at hexponent ⊢
  omega

end LayeredConfig.Number
