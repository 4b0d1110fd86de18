import LayeredConfig.Number.Checked
import LayeredConfig.Proofs.Number.Decimal
import Mathlib.Tactic.SplitIfs

namespace LayeredConfig.Number

section

variable {a b n : Int64}

lemma unless_overflow_iff {overflows : Bool} {wrapped : Int64} {exact : Int}
    (hflag : overflows = true ↔ exact < minInt ∨ maxInt < exact)
    (hwrapped : wrapped.toInt = exact.bmod Int64.size) :
    (if overflows then none else some wrapped) = some n ↔ n.toInt = exact := by
  obtain ⟨hlow, hhigh⟩ := toInt_bounds n
  by_cases h : overflows = true
  · rw [if_pos h]
    refine iff_of_false (Option.some_ne_none n).symm fun hn => ?_
    have hout := hflag.mp h
    rw [← hn] at hout
    omega
  · have hin : minInt ≤ exact ∧ exact ≤ maxInt := by
      rw [hflag] at h
      omega
    have hexact : wrapped.toInt = exact := by
      unfold minInt maxInt at hin
      rw [hwrapped, Int.bmod_eq_of_le] <;> unfold Int64.size <;> omega
    rw [if_neg h, Option.some_inj, ← Int64.toInt_inj, hexact, eq_comm]

lemma checkedNeg_eq_some_iff : checkedNeg a = some n ↔ n.toInt = -a.toInt := by
  refine unless_overflow_iff ?_ (Int64.toInt_neg a)
  have hlow := a.le_toInt
  have hhigh := a.toInt_lt
  simp only [BitVec.negOverflow, Int64.toInt_toBitVec, beq_iff_eq, minInt, maxInt]
  omega

lemma checkedAdd_eq_some_iff : checkedAdd a b = some n ↔ n.toInt = a.toInt + b.toInt := by
  refine unless_overflow_iff ?_ (Int64.toInt_add a b)
  simp only [BitVec.saddOverflow, Int64.toInt_toBitVec, Bool.or_eq_true, decide_eq_true_eq, minInt,
    maxInt]
  omega

lemma checkedSub_eq_some_iff : checkedSub a b = some n ↔ n.toInt = a.toInt - b.toInt := by
  refine unless_overflow_iff ?_ (Int64.toInt_sub a b)
  simp only [BitVec.ssubOverflow, Int64.toInt_toBitVec, Bool.or_eq_true, decide_eq_true_eq, minInt,
    maxInt]
  omega

lemma checkedMul_eq_some_iff : checkedMul a b = some n ↔ n.toInt = a.toInt * b.toInt := by
  refine unless_overflow_iff ?_ (Int64.toInt_mul a b)
  simp only [BitVec.smulOverflow, Int64.toInt_toBitVec, Bool.or_eq_true, decide_eq_true_eq, minInt,
    maxInt]
  omega

end

section

variable {a b : Int64}

lemma eq_of_not_hasQuotient (hb : b ≠ 0) (h : ¬ hasQuotient a b = true) :
    a = Int64.minValue ∧ b = -1 := by
  simpa [hasQuotient, hb] using h

lemma toInt_remainder (hb : b ≠ 0) :
    ((checkedRem a b).getD 0).toInt = a.toInt.tmod b.toInt := by
  rw [checkedRem]
  split_ifs with h
  · exact Int64.toInt_mod a b
  · obtain ⟨rfl, rfl⟩ := eq_of_not_hasQuotient hb h
    decide

lemma toInt_quotient (h : hasQuotient a b = true) : (a / b).toInt = a.toInt.tdiv b.toInt := by
  by_cases ha : a = Int64.minValue
  · refine Int64.toInt_div_of_ne_right a b ?_
    rintro rfl
    rw [ha] at h
    exact absurd h (by decide)
  · exact Int64.toInt_div_of_ne_left a b ha

lemma exactQuotient_iff {n : Int64} (hb : b ≠ 0) :
    (if checkedRem a b = some 0 then checkedDiv a b else none) = some n ↔
      b.toInt ∣ a.toInt ∧ n.toInt = a.toInt / b.toInt := by
  by_cases hquotient : hasQuotient a b = true
  · have hrem : checkedRem a b = some 0 ↔ b.toInt ∣ a.toInt := by
      rw [checkedRem, if_pos hquotient, Option.some_inj, ← Int64.toInt_inj, Int64.toInt_mod,
        Int64.toInt_zero, Int.dvd_iff_tmod_eq_zero]
    by_cases hdvd : b.toInt ∣ a.toInt
    · rw [if_pos (hrem.mpr hdvd), checkedDiv, if_pos hquotient, Option.some_inj,
        ← Int64.toInt_inj, toInt_quotient hquotient, and_iff_right hdvd,
        Int.tdiv_eq_ediv_of_dvd hdvd, eq_comm]
    · rw [if_neg (hrem.not.mpr hdvd)]
      exact iff_of_false (Option.some_ne_none n).symm fun h => hdvd h.1
  · obtain ⟨rfl, rfl⟩ := eq_of_not_hasQuotient hb hquotient
    have hrem : checkedRem Int64.minValue (-1) = none := if_neg hquotient
    rw [if_neg (hrem ▸ (Option.some_ne_none 0).symm)]
    refine iff_of_false (Option.some_ne_none n).symm ?_
    rintro ⟨-, hn⟩
    have hlt := n.toInt_lt
    rw [hn] at hlt
    exact absurd hlt (by decide)

end

end LayeredConfig.Number
