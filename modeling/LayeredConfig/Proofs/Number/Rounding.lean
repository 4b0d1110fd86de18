import LayeredConfig.Number.Double
import Mathlib.Algebra.Order.Field.Power
import Mathlib.Algebra.Order.Ring.Rat
import Mathlib.Tactic.FieldSimp
import Mathlib.Tactic.Linarith
import Mathlib.Tactic.NormNum
import Mathlib.Tactic.Positivity
import Mathlib.Tactic.Ring

/-! Rounding to the nearest double, on exact values. -/

namespace LayeredConfig.Number

def IsDouble (x : ℚ) : Prop :=
  ∃ m e : ℤ, |m| < 2 ^ 53 ∧ -1074 ≤ e ∧ e ≤ 971 ∧ x = m * 2 ^ e

/-- No double is nearer to `v` than `x` is. -/
structure Nearest (x v : ℚ) : Prop where
  double : IsDouble x
  least : ∀ y, IsDouble y → |v - x| ≤ |v - y|

lemma IsDouble.neg {x : ℚ} (h : IsDouble x) : IsDouble (-x) := by
  obtain ⟨m, e, hm, hlow, hhigh, rfl⟩ := h
  exact ⟨-m, e, by rwa [abs_neg], hlow, hhigh, by push_cast; ring⟩

lemma Nearest.neg {x v : ℚ} (h : Nearest x v) : Nearest (-x) (-v) := by
  refine ⟨h.double.neg, fun y hy => ?_⟩
  calc |-v - -x| = |v - x| := by rw [neg_sub_neg, abs_sub_comm]
    _ ≤ |v - -y| := h.least (-y) hy.neg
    _ = |-v - y| := by rw [← abs_neg, neg_sub', neg_neg]

lemma Nearest.eq_of_isDouble {x v : ℚ} (h : Nearest x v) (hv : IsDouble v) : x = v := by
  have hleast := h.least v hv
  rw [sub_self, abs_zero] at hleast
  exact (sub_eq_zero.mp (abs_nonpos_iff.mp hleast)).symm

lemma IsDouble.zero : IsDouble 0 := ⟨0, 0, by norm_num, by norm_num, by norm_num, by norm_num⟩

lemma IsDouble.coarse {x : ℚ} (h : IsDouble x) (hlow : 2 ^ 62 ≤ x) :
    ∃ k : ℤ, x = (1024 * k : ℤ) := by
  -- Doubles of 63 bits lie 1024 apart.
  obtain ⟨m, e, hm, -, -, rfl⟩ := h
  have hexponent : 10 ≤ e := by
    by_contra! hsmall
    have hmant : (m : ℚ) < 2 ^ 53 := by exact_mod_cast (le_abs_self m).trans_lt hm
    have hbelow : (m : ℚ) * 2 ^ e < 2 ^ 62 := by
      calc (m : ℚ) * 2 ^ e < 2 ^ 53 * 2 ^ e := by gcongr
        _ ≤ 2 ^ 53 * 2 ^ (9 : ℤ) := by
          gcongr
          · norm_num
          · omega
        _ = 2 ^ 62 := by norm_num
    exact absurd hlow hbelow.not_ge
  refine ⟨m * 2 ^ (e - 10).toNat, ?_⟩
  have hsplit : (2 : ℚ) ^ e = 1024 * 2 ^ (e - 10).toNat := by
    rw [← zpow_natCast, Int.toNat_of_nonneg (by omega),
      (by norm_num : (1024 : ℚ) = 2 ^ (10 : ℤ)), ← zpow_add₀ two_ne_zero]
    congr 1
    omega
  rw [hsplit]
  push_cast
  ring

lemma zpow_eq_div {b : ℚ} (hb : b ≠ 0) (e : ℤ) : b ^ e = b ^ e.toNat / b ^ (-e).toNat := by
  rw [← zpow_natCast, ← zpow_natCast, ← zpow_sub₀ hb, Int.toNat_sub_toNat_neg]

lemma roundHalfEven_near (num : ℕ) {den : ℕ} (hden : den ≠ 0) :
    |(num / den : ℚ) - roundHalfEven num den| ≤ 1 / 2 := by
  have hpos : (0 : ℚ) < den := by positivity
  have hsplit : (num : ℚ) = den * (num / den : ℕ) + (num % den : ℕ) := by
    exact_mod_cast (Nat.div_add_mod num den).symm
  have hlt : (num % den : ℕ) < den := Nat.mod_lt _ (Nat.pos_of_ne_zero hden)
  rw [roundHalfEven, hsplit, add_div, mul_div_cancel_left₀ _ hpos.ne', abs_le]
  split_ifs with hround
  · have hhalf : (num % den : ℕ) / (den : ℚ) ≤ 1 / 2 := by
      rw [div_le_div_iff₀ hpos (by norm_num)]
      exact_mod_cast (by omega : num % den * 2 ≤ 1 * den)
    have hnonneg : (0 : ℚ) ≤ (num % den : ℕ) / den := by positivity
    constructor
    all_goals linarith
  · have hhalf : 1 / 2 ≤ (num % den : ℕ) / (den : ℚ) := by
      rw [div_le_div_iff₀ (by norm_num) hpos]
      exact_mod_cast (by omega : 1 * den ≤ num % den * 2)
    have hone : (num % den : ℕ) / (den : ℚ) ≤ 1 := by
      rw [div_le_one hpos]
      exact_mod_cast hlt.le
    push_cast
    constructor
    all_goals linarith

lemma le_roundHalfEven {num den low : ℕ} (hden : den ≠ 0) (h : (low : ℚ) ≤ num / den) :
    low ≤ roundHalfEven num den := by
  have hnear := (abs_le.mp (roundHalfEven_near num hden)).2
  have hlt : (low : ℚ) < (roundHalfEven num den : ℚ) + 1 := by linarith
  exact Nat.lt_add_one_iff.mp (by exact_mod_cast hlt)

lemma roundHalfEven_le {num den high : ℕ} (hden : den ≠ 0) (h : (num / den : ℚ) ≤ high) :
    roundHalfEven num den ≤ high := by
  have hnear := (abs_le.mp (roundHalfEven_near num hden)).1
  have hlt : (roundHalfEven num den : ℚ) < high + 1 := by linarith
  exact Nat.lt_add_one_iff.mp (by exact_mod_cast hlt)

lemma abs_sub_le_of_near {x : ℚ} {r : ℤ} (h : |x - r| ≤ 1 / 2) (j : ℤ) : |x - r| ≤ |x - j| := by
  obtain rfl | hne := eq_or_ne j r
  · exact le_rfl
  · have hone : (1 : ℚ) ≤ |(r : ℚ) - j| := by
      exact_mod_cast Int.one_le_abs (sub_ne_zero.mpr hne.symm)
    have htriangle := abs_sub_le (r : ℚ) x j
    rw [abs_sub_comm (r : ℚ) x] at htriangle
    linarith

lemma abs_sub_grid_le {x : ℚ} {r e : ℤ} (hr : |x / 2 ^ e - r| ≤ 1 / 2)
    (hplace : e = -1074 ∨ 2 ^ 52 * 2 ^ e ≤ x) {y : ℚ} (hy : IsDouble y) :
    |x - r * 2 ^ e| ≤ |x - y| := by
  -- Rounding on the grid of the last place is rounding among the doubles: a coarser grid lies
  -- within this one, and a finer one has doubles only below the binade.
  have hunit : (0 : ℚ) < 2 ^ e := by positivity
  have hgrid : ∀ j : ℤ, |x - r * 2 ^ e| ≤ |x - j * 2 ^ e| := by
    intro j
    have hscale : ∀ i : ℤ, |x - i * 2 ^ e| = |x / 2 ^ e - i| * 2 ^ e := by
      intro i
      rw [← abs_of_pos hunit, ← abs_mul, abs_of_pos hunit, sub_mul, div_mul_cancel₀ _ hunit.ne']
    rw [hscale, hscale]
    exact mul_le_mul_of_nonneg_right (abs_sub_le_of_near hr j) hunit.le
  obtain ⟨m, f, hm, hlow, -, rfl⟩ := hy
  obtain hcoarse | hfine := le_or_gt e f
  · have hsplit : (m : ℚ) * 2 ^ f = (m * 2 ^ (f - e).toNat : ℤ) * 2 ^ e := by
      push_cast
      rw [mul_assoc, ← zpow_natCast, ← zpow_add₀ two_ne_zero]
      congr 2
      omega
    rw [hsplit]
    exact hgrid _
  · have hbinade : 2 ^ 52 * 2 ^ e ≤ x := hplace.resolve_left (by omega)
    have hbelow : (m : ℚ) * 2 ^ f ≤ 2 ^ 52 * 2 ^ e := by
      have hmant : (m : ℚ) ≤ 2 ^ 53 := by exact_mod_cast (le_abs_self m).trans hm.le
      calc (m : ℚ) * 2 ^ f ≤ 2 ^ 53 * 2 ^ f := by gcongr
        _ = 2 ^ 52 * 2 ^ (f + 1) := by rw [zpow_add_one₀ two_ne_zero]; ring
        _ ≤ 2 ^ 52 * 2 ^ e := by
          gcongr
          · norm_num
          · omega
    have hleast := hgrid (2 ^ 52)
    rw [Int.cast_pow, Int.cast_ofNat, abs_of_nonneg (sub_nonneg.mpr hbinade)] at hleast
    rw [abs_of_nonneg (sub_nonneg.mpr (hbelow.trans hbinade))]
    linarith

lemma log2_bounds {n : ℕ} (h : n ≠ 0) :
    (2 : ℚ) ^ (n.log2 : ℤ) ≤ n ∧ (n : ℚ) < 2 ^ ((n.log2 : ℤ) + 1) := by
  constructor
  · exact_mod_cast Nat.log2_self_le h
  · exact_mod_cast Nat.lt_log2_self

lemma quotient_log2_bounds {num den : ℕ} (hnum : num ≠ 0) (hden : den ≠ 0) :
    (2 : ℚ) ^ ((num.log2 : ℤ) - den.log2 - 1) ≤ num / den ∧
      (num / den : ℚ) ≤ 2 ^ ((num.log2 : ℤ) - den.log2 + 1) := by
  obtain ⟨hnumlow, hnumhigh⟩ := log2_bounds hnum
  obtain ⟨hdenlow, hdenhigh⟩ := log2_bounds hden
  have hpos : (0 : ℚ) < den := by positivity
  rw [le_div_iff₀ hpos, div_le_iff₀ hpos]
  constructor
  · calc (2 : ℚ) ^ ((num.log2 : ℤ) - den.log2 - 1) * den
        ≤ 2 ^ ((num.log2 : ℤ) - den.log2 - 1) * 2 ^ ((den.log2 : ℤ) + 1) := by gcongr
      _ = 2 ^ (num.log2 : ℤ) := by rw [← zpow_add₀ two_ne_zero]; congr 1; omega
      _ ≤ num := hnumlow
  · calc (num : ℚ) ≤ 2 ^ ((num.log2 : ℤ) + 1) := hnumhigh.le
      _ = 2 ^ ((num.log2 : ℤ) - den.log2 + 1) * 2 ^ (den.log2 : ℤ) := by
        rw [← zpow_add₀ two_ne_zero]; congr 1; omega
      _ ≤ 2 ^ ((num.log2 : ℤ) - den.log2 + 1) * den := by gcongr

lemma lt_powTwo_iff {num den : ℕ} (hden : den ≠ 0) (k : ℤ) :
    num * powTwo (-k).toNat < den * powTwo k.toNat ↔ (num / den : ℚ) < 2 ^ k := by
  have hpos : (0 : ℚ) < den := by positivity
  rw [zpow_eq_div two_ne_zero, div_lt_div_iff₀ hpos (by positivity), mul_comm _ (den : ℚ)]
  change num * 2 ^ (-k).toNat < den * 2 ^ k.toNat ↔ _
  norm_cast

lemma lastPlace_spec {num den : ℕ} (hnum : num ≠ 0) (hden : den ≠ 0) :
    (num / den : ℚ) ≤ 2 ^ 53 * 2 ^ lastPlace num den ∧
      (lastPlace num den = -1074 ∨ -1074 < lastPlace num den ∧
        2 ^ 52 * 2 ^ lastPlace num den ≤ (num / den : ℚ)) := by
  obtain ⟨hlow, hhigh⟩ := quotient_log2_bounds hnum hden
  obtain ⟨e, he, hbinade⟩ : ∃ e : ℤ, lastPlace num den = max e (-1074) ∧
      2 ^ (e + 52) ≤ (num / den : ℚ) ∧ (num / den : ℚ) ≤ 2 ^ (e + 53) := by
    refine ⟨_, rfl, ?_⟩
    split_ifs with hbelow
    · rw [lt_powTwo_iff hden] at hbelow
      exact ⟨(zpow_le_zpow_right₀ one_le_two (by omega)).trans hlow,
        hbelow.le.trans (zpow_le_zpow_right₀ one_le_two (by omega))⟩
    · rw [lt_powTwo_iff hden, not_lt] at hbelow
      exact ⟨(zpow_le_zpow_right₀ one_le_two (by omega)).trans hbelow,
        hhigh.trans (zpow_le_zpow_right₀ one_le_two (by omega))⟩
  have hshift : ∀ n : ℕ, (2 : ℚ) ^ n * 2 ^ max e (-1074) = 2 ^ (max e (-1074) + n) := by
    intro n
    rw [zpow_add₀ two_ne_zero, zpow_natCast, mul_comm]
  rw [he, hshift, hshift]
  constructor
  · exact hbinade.2.trans (zpow_le_zpow_right₀ one_le_two (by omega))
  · obtain hle | hlt := le_or_gt e (-1074)
    · exact .inl (max_eq_right hle)
    · rw [max_eq_left hlt.le]
      exact .inr ⟨hlt, hbinade.1⟩

lemma exists_nearestBits {num den : ℕ} (hnum : num ≠ 0) (hden : den ≠ 0) :
    ∃ e m : ℕ, nearestBits num den = min (e * exponentUnit + m) infinityBits ∧
      m ≤ 2 * exponentUnit ∧ (e = 0 ∨ exponentUnit ≤ m) ∧
      ∀ y, IsDouble y → |(num / den : ℚ) - m * 2 ^ ((e : ℤ) - 1074)| ≤ |(num / den : ℚ) - y| := by
  obtain ⟨hhigh, hplace⟩ := lastPlace_spec hnum hden
  generalize he : lastPlace num den = e at hhigh hplace
  have hunit : (0 : ℚ) < 2 ^ e := by positivity
  have hscale : ((num * powTwo (-e).toNat : ℕ) / (den * powTwo e.toNat : ℕ) : ℚ) =
      num / den / 2 ^ e := by
    rw [zpow_eq_div two_ne_zero e]
    simp only [powTwo, Nat.pow_eq]
    push_cast
    field_simp
  have hgrid : den * powTwo e.toNat ≠ 0 := by
    simp [powTwo, hden]
  have hnear := roundHalfEven_near (num * powTwo (-e).toNat) hgrid
  refine ⟨(e + 1074).toNat, roundHalfEven (num * powTwo (-e).toNat) (den * powTwo e.toNat), ?_,
    ?_, ?_, ?_⟩
  · rw [nearestBits, if_neg hnum, he]
  · refine roundHalfEven_le hgrid ?_
    rw [hscale, div_le_iff₀ hunit]
    rwa [(by norm_num [exponentUnit] : ((2 * exponentUnit : ℕ) : ℚ) = 2 ^ 53)]
  · obtain rfl | ⟨hlow, hbinade⟩ := hplace
    · exact .inl rfl
    · refine .inr (le_roundHalfEven hgrid ?_)
      rw [hscale, le_div_iff₀ hunit]
      rwa [(by norm_num [exponentUnit] : (exponentUnit : ℚ) = 2 ^ 52)]
  · intro y hy
    have hexponent : ((e + 1074).toNat - 1074 : ℤ) = e := by omega
    rw [hscale] at hnear
    rw [hexponent]
    exact_mod_cast abs_sub_grid_le (by exact_mod_cast hnear) (hplace.imp_right And.right) hy

end LayeredConfig.Number
