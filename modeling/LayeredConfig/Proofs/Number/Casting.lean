import LayeredConfig.Proofs.Number.Nearest
import Mathlib.Data.Rat.Floor

/-! A cast to a word takes the whole part of a double, or the end of the range that is nearest to
it. -/

namespace LayeredConfig.Number

def wholePart (x : ℚ) : ℤ := if x < 0 then ⌈x⌉ else ⌊x⌋

def saturated (n : ℤ) : ℤ := max minInt (min maxInt n)

lemma toInt_clamp (n : ℤ) : (clamp n).toInt = saturated n := by
  have hlow : minInt ≤ saturated n := le_max_left _ _
  have hhigh : saturated n ≤ maxInt := max_le (by decide) (min_le_left _ _)
  exact Int64.toInt_ofInt_of_le hlow (Int.lt_add_one_of_le hhigh)

lemma saturated_of_ge {n : ℤ} (h : maxInt ≤ n) : saturated n = maxInt := by
  rw [saturated, min_eq_left h]
  rfl

lemma saturated_of_le {n : ℤ} (h : n ≤ minInt) : saturated n = minInt :=
  max_eq_left ((min_le_right _ _).trans h)

lemma saturated_eq_self {n : ℤ} (hlow : minInt ≤ n) (hhigh : n ≤ maxInt) : saturated n = n := by
  rw [saturated, min_eq_right hhigh, max_eq_right hlow]

lemma wholePart_neg (x : ℚ) : wholePart (-x) = -wholePart x := by
  obtain hneg | rfl | hpos := lt_trichotomy x 0
  · simp [wholePart, hneg, hneg.le, Int.floor_neg]
  · simp [wholePart]
  · simp [wholePart, hpos, hpos.le, Int.ceil_neg]

lemma wholePart_intCast (n : ℤ) : wholePart n = n := by
  simp [wholePart]

lemma le_wholePart {n : ℤ} {x : ℚ} (hn : 0 ≤ n) (h : n ≤ x) : n ≤ wholePart x := by
  have hx : (0 : ℚ) ≤ x := le_trans (by exact_mod_cast hn) h
  rw [wholePart, if_neg hx.not_gt]
  exact Int.le_floor.mpr h

lemma saturated_wholePart_of_ge {x : ℚ} (h : maxInt ≤ x) : saturated (wholePart x) = maxInt :=
  saturated_of_ge (le_wholePart (by decide) h)

lemma saturated_wholePart_of_le {x : ℚ} (h : x ≤ minInt) : saturated (wholePart x) = minInt := by
  have hopposite : -minInt ≤ wholePart (-x) := by
    apply le_wholePart (by decide)
    push_cast
    linarith
  rw [wholePart_neg] at hopposite
  exact saturated_of_le (neg_le_neg_iff.mp hopposite)

lemma wholePart_finite (negative : Bool) (m : ℕ) (e : ℤ) :
    wholePart (signed negative m * 2 ^ e) =
      signed negative (m * powTwo e.toNat / powTwo (-e).toNat) := by
  have hfloor : ⌊(m * 2 ^ e : ℚ)⌋ = (m * powTwo e.toNat / powTwo (-e).toNat : ℕ) := by
    rw [zpow_eq_div two_ne_zero, ← mul_div_assoc]
    exact_mod_cast Rat.floor_natCast_div_natCast (m * 2 ^ e.toNat) (2 ^ (-e).toNat)
  have hnonneg : ¬ (m * 2 ^ e : ℚ) < 0 := not_lt.mpr (by positivity)
  have hwhole : wholePart (m * 2 ^ e) = (m * powTwo e.toNat / powTwo (-e).toNat : ℕ) := by
    rw [wholePart, if_neg hnonneg, hfloor]
  cases negative with
  | false => exact hwhole
  | true =>
    have hsigned : (signed true m * 2 ^ e : ℚ) = -(m * 2 ^ e) := by simp [signed]
    rw [hsigned, wholePart_neg, hwhole]
    rfl

lemma toInt_toInt64 {d : Double} {x : ℚ} (h : d.toRat? = some x) :
    d.toInt64.toInt = saturated (wholePart x) := by
  rcases d with _ | _ | ⟨negative, m, e⟩
  · simp [Double.toRat?] at h
  · simp [Double.toRat?] at h
  · obtain rfl := Option.some.inj h
    rw [Double.toInt64, toInt_clamp, wholePart_finite]

lemma isDouble_over : IsDouble (maxInt + 1 : ℤ) :=
  ⟨1, 63, by norm_num, by norm_num, by norm_num, by norm_num [maxInt]⟩

lemma Nearest.le_of_isDouble {x v y : ℚ} (h : Nearest x v) (hy : IsDouble y) (hv : y ≤ v) :
    y ≤ x := by
  by_contra! hlt
  have hleast := h.least y hy
  rw [abs_of_nonneg (by linarith), abs_of_nonneg (by linarith)] at hleast
  linarith

namespace Literal

variable {s : List Char} {l : Literal}

lemma toDouble_of_toRat? (h : l.toDouble.toRat? = none) : l.toDouble = .infinite l.negative := by
  have hbits : l.magnitudeBits = infinityBits := by
    by_contra hne
    obtain ⟨x, hx⟩ := exists_toRat? (l.magnitudeBits_le.lt_of_ne hne)
    simp [toRat?_toDouble, hx] at h
  have hsplit : l.bits = signBit l.negative + l.magnitudeBits := by
    simp [bits, magnitudeBits, decimalBits, signBit]
  rw [toDouble, hsplit, hbits]
  cases l.negative
  all_goals rfl

structure IsCast (l : Literal) (n : Int64) : Prop where
  finite : ∀ x, l.toDouble.toRat? = some x → Nearest x l.value ∧ n.toInt = saturated (wholePart x)
  infinite : l.toDouble.toRat? = none →
    2 ^ 64 < |l.value| ∧ n.toInt = saturated (wholePart l.value)

lemma magnitude_nonneg (l : Literal) : 0 ≤ l.magnitude := by
  rw [magnitude]
  positivity

lemma isCast_toInt64 (hread : read s = some l) : IsCast l l.toDouble.toInt64 := by
  refine ⟨fun x hx => ⟨nearest_toDouble hread hx, toInt_toInt64 hx⟩, fun hnone => ?_⟩
  have hlarge : 2 ^ 64 < |l.value| := by
    by_contra! hle
    obtain ⟨x, hx⟩ := exists_toRat?_toDouble hle
    simp [hnone] at hx
  refine ⟨hlarge, ?_⟩
  have hmagnitude := l.magnitude_nonneg
  rw [toDouble_of_toRat? hnone, Double.toInt64, toInt_clamp]
  rw [value_eq] at hlarge ⊢
  generalize l.negative = negative at hlarge ⊢
  cases negative with
  | false =>
    rw [if_neg Bool.false_ne_true, abs_of_nonneg hmagnitude] at hlarge
    have hend : (maxInt : ℚ) ≤ l.magnitude := by
      norm_num [maxInt]
      linarith
    exact (saturated_wholePart_of_ge hend).symm
  | true =>
    rw [if_pos rfl, abs_neg, abs_of_nonneg hmagnitude] at hlarge
    have hend : -l.magnitude ≤ minInt := by
      norm_num [minInt]
      linarith
    exact (saturated_wholePart_of_le hend).symm

lemma IsCast.toInt_eq {w : Int64} {n : ℤ} (h : IsCast l w) (hvalue : l.value = n)
    (hbeyond : n < minInt ∨ maxInt < n) : w.toInt = saturated n := by
  rcases hx : l.toDouble.toRat? with _ | x
  · rw [(h.infinite hx).2, hvalue, wholePart_intCast]
  · obtain ⟨hnearest, hw⟩ := h.finite x hx
    rw [hvalue] at hnearest
    rw [hw]
    obtain hlow | hhigh := hbeyond
    · have hle : ((maxInt + 1 : ℤ) : ℚ) ≤ -x := by
        apply hnearest.neg.le_of_isDouble isDouble_over
        exact_mod_cast (by simp only [minInt, maxInt] at *; omega : maxInt + 1 ≤ -n)
      have hend : x ≤ minInt := by
        norm_num [maxInt, minInt] at hle ⊢
        linarith
      rw [saturated_wholePart_of_le hend, saturated_of_le hlow.le]
    · have hle : ((maxInt + 1 : ℤ) : ℚ) ≤ x := by
        apply hnearest.le_of_isDouble isDouble_over
        exact_mod_cast Int.add_one_le_of_lt hhigh
      have hend : (maxInt : ℚ) ≤ x := le_trans (by exact_mod_cast Int.le_add_one le_rfl) hle
      rw [saturated_wholePart_of_ge hend, saturated_of_ge hhigh.le]

end Literal

end LayeredConfig.Number
