import LayeredConfig.Proofs.Number.Rounding
import LayeredConfig.Proofs.Number.Scaled

/-! A literal becomes the nearest double, unless it becomes infinite. -/

namespace LayeredConfig.Number

def Double.toRat? : Double → Option ℚ
  | .finite negative m e => some (signed negative m * 2 ^ e)
  | _ => none

lemma signed_mul (negative : Bool) (m n : ℕ) :
    signed negative (m * n) = signed negative m * n := by
  cases negative
  all_goals simp [signed]

lemma natAbs_signed (negative : Bool) (m : ℕ) : (signed negative m).natAbs = m := by
  cases negative
  all_goals simp [signed]

lemma isDouble_of_ofBits {bits : ℕ} {x : ℚ} (h : (Double.ofBits bits).toRat? = some x) :
    IsDouble x := by
  have hfraction : bits % exponentUnit < exponentUnit := Nat.mod_lt _ (by decide)
  have hfield : bits / exponentUnit % 2048 < 2048 := Nat.mod_lt _ (by decide)
  rw [Double.ofBits] at h
  split_ifs at h with htop hzero hsubnormal
  · simp [Double.toRat?] at h
  · simp [Double.toRat?] at h
  · obtain rfl := Option.some.inj h
    refine ⟨_, _, ?_, le_rfl, by decide, rfl⟩
    rw [Int.abs_eq_natAbs, natAbs_signed]
    simp only [exponentUnit] at hfraction ⊢
    omega
  · obtain rfl := Option.some.inj h
    refine ⟨_, _, ?_, ?_, ?_, rfl⟩
    · rw [Int.abs_eq_natAbs, natAbs_signed]
      simp only [exponentUnit] at hfraction ⊢
      omega
    · omega
    · omega

lemma ofBits_of_lt {bits : ℕ} (h : bits < infinityBits) :
    Double.ofBits bits =
      if bits / exponentUnit = 0 then .finite false (bits % exponentUnit) (-1074)
      else .finite false (exponentUnit + bits % exponentUnit)
        ((bits / exponentUnit : ℕ) - 1075) := by
  have hpositive : ¬ signUnit ≤ bits := by
    simp only [infinityBits, exponentUnit, signUnit] at h ⊢
    omega
  have hfield : bits / exponentUnit < 2047 := by
    simp only [infinityBits, exponentUnit] at h ⊢
    omega
  simp only [Double.ofBits, Nat.mod_eq_of_lt (hfield.trans (by decide : 2047 < 2048)), hfield.ne,
    hpositive, decide_false, if_false]

lemma toRat?_ofBits {e m : ℕ} (hm : m ≤ 2 * exponentUnit) (hnormal : e = 0 ∨ exponentUnit ≤ m)
    (hfinite : e * exponentUnit + m < infinityBits) :
    (Double.ofBits (e * exponentUnit + m)).toRat? =
      some ((m : ℚ) * 2 ^ ((e : ℤ) - 1074)) := by
  rw [ofBits_of_lt hfinite]
  obtain hsmall | hlarge := lt_or_ge m exponentUnit
  · obtain rfl : e = 0 := hnormal.resolve_right hsmall.not_ge
    rw [Nat.zero_mul, Nat.zero_add, Nat.div_eq_of_lt hsmall, Nat.mod_eq_of_lt hsmall, if_pos rfl]
    rfl
  · obtain hlt | rfl := hm.lt_or_eq
    · have hfield : (e * exponentUnit + m) / exponentUnit = e + 1 := by
        simp only [exponentUnit] at *
        omega
      have hfraction : (e * exponentUnit + m) % exponentUnit = m - exponentUnit := by
        simp only [exponentUnit] at *
        omega
      rw [hfield, hfraction, if_neg (Nat.succ_ne_zero e), Nat.add_sub_cancel' hlarge]
      have hexponent : ((e + 1 : ℕ) - 1075 : ℤ) = e - 1074 := by omega
      rw [hexponent]
      rfl
    · -- the carry leaves no fraction
      have hfield : (e * exponentUnit + 2 * exponentUnit) / exponentUnit = e + 2 := by
        simp only [exponentUnit]
        omega
      have hfraction : (e * exponentUnit + 2 * exponentUnit) % exponentUnit = 0 := by
        simp only [exponentUnit]
        omega
      rw [hfield, hfraction, if_neg (Nat.succ_ne_zero _)]
      have hexponent : ((e + 2 : ℕ) - 1075 : ℤ) = (e - 1074 : ℤ) + 1 := by omega
      rw [hexponent, Double.toRat?, zpow_add_one₀ two_ne_zero, signed, if_neg Bool.false_ne_true]
      refine congrArg some ?_
      generalize exponentUnit = unit
      push_cast
      ring

lemma toRat?_negative (m : ℕ) (e : ℤ) :
    (Double.finite true m e).toRat? = (Double.finite false m e).toRat?.map (-·) := by
  simp [Double.toRat?, signed]

lemma toRat?_signUnit {bits : ℕ} (h : bits < signUnit) :
    (Double.ofBits (signUnit + bits)).toRat? = (Double.ofBits bits).toRat?.map (-·) := by
  have hfield : (signUnit + bits) / exponentUnit % 2048 = bits / exponentUnit % 2048 := by
    simp only [signUnit, exponentUnit]
    omega
  have hfraction : (signUnit + bits) % exponentUnit = bits % exponentUnit := by
    simp only [signUnit, exponentUnit]
    omega
  have hnegative : signUnit ≤ signUnit + bits := Nat.le_add_right _ _
  simp only [Double.ofBits, hfield, hfraction, hnegative, not_le.mpr h, decide_true, decide_false]
  split_ifs
  · rfl
  · rfl
  · exact toRat?_negative _ _
  · exact toRat?_negative _ _

lemma nearest_of_nearestBits {num den : ℕ} (hnum : num ≠ 0) (hden : den ≠ 0) {x : ℚ}
    (h : (Double.ofBits (nearestBits num den)).toRat? = some x) : Nearest x (num / den) := by
  refine ⟨isDouble_of_ofBits h, ?_⟩
  obtain ⟨e, m, hbits, hm, hnormal, hleast⟩ := exists_nearestBits hnum hden
  rw [hbits] at h
  obtain hfinite | hover := lt_or_ge (e * exponentUnit + m) infinityBits
  · rw [Nat.min_eq_left hfinite.le, toRat?_ofBits hm hnormal hfinite] at h
    obtain rfl := Option.some.inj h
    exact hleast
  · rw [Nat.min_eq_right hover] at h
    cases h

lemma nearest_zero {v : ℚ} (hnonneg : 0 ≤ v) (hsmall : v ≤ 2 ^ (-1075 : ℤ)) : Nearest 0 v := by
  refine ⟨.zero, ?_⟩
  rintro _ ⟨m, e, -, hlow, -, rfl⟩
  rw [sub_zero, abs_of_nonneg hnonneg]
  obtain rfl | hm := eq_or_ne m 0
  · simp [abs_of_nonneg hnonneg]
  · have hone : (1 : ℚ) ≤ |(m : ℚ)| := by exact_mod_cast Int.one_le_abs hm
    have hleast : (2 : ℚ) ^ (-1074 : ℤ) ≤ |(m * 2 ^ e : ℚ)| := by
      rw [abs_mul, abs_of_pos (by positivity : (0 : ℚ) < 2 ^ e)]
      calc (2 : ℚ) ^ (-1074 : ℤ) ≤ 2 ^ e := zpow_le_zpow_right₀ one_le_two hlow
        _ ≤ |(m : ℚ)| * 2 ^ e := le_mul_of_one_le_left (by positivity) hone
    have htwice : (2 : ℚ) ^ (-1074 : ℤ) = 2 * 2 ^ (-1075 : ℤ) := by
      rw [← zpow_one_add₀ two_ne_zero]
      rfl
    have htriangle := abs_sub_abs_le_abs_sub (m * 2 ^ e : ℚ) v
    rw [abs_of_nonneg hnonneg, abs_sub_comm] at htriangle
    linarith

lemma decimal_underflow : (10 : ℚ) ^ (-331 : ℤ) ≤ 2 ^ (-1075 : ℤ) := by
  have hpow : (2 : ℚ) ^ 1075 ≤ 10 ^ 331 := by
    calc (2 : ℚ) ^ 1075 = (2 ^ 13) ^ 82 * 2 ^ 9 := by rw [← pow_mul, ← pow_add]
      _ ≤ (10 ^ 4) ^ 82 * 10 ^ 3 := by gcongr <;> norm_num
      _ = 10 ^ 331 := by rw [← pow_mul, ← pow_add]
  rw [zpow_neg, zpow_neg, inv_le_inv₀ (by positivity) (by positivity)]
  exact_mod_cast hpow

lemma decimalBits_unsigned (digits width : ℕ) (exponent : ℤ) :
    decimalBits false digits width exponent =
      if digits = 0 ∨ width + exponent < -330 then 0
      else if 330 < exponent then infinityBits
      else nearestBits (digits * powTen exponent.toNat) (powTen (-exponent).toNat) :=
  Nat.zero_add _

lemma powTen_ne_zero (n : ℕ) : powTen n ≠ 0 := pow_ne_zero n (by norm_num)

lemma powTen_quotient (digits : ℕ) (exponent : ℤ) :
    ((digits * powTen exponent.toNat : ℕ) / (powTen (-exponent).toNat : ℕ) : ℚ) =
      digits * 10 ^ exponent := by
  rw [zpow_eq_div (by norm_num), ← mul_div_assoc]
  simp [powTen]

lemma nearest_of_decimalBits {digits width : ℕ} {exponent : ℤ} (hwidth : digits < 10 ^ width)
    {x : ℚ} (h : (Double.ofBits (decimalBits false digits width exponent)).toRat? = some x) :
    Nearest x (digits * 10 ^ exponent) := by
  have hzero : (Double.ofBits 0).toRat? = some 0 := by
    simpa using toRat?_ofBits (e := 0) (m := 0) (Nat.zero_le _) (.inl rfl) (by decide)
  rw [decimalBits_unsigned] at h
  split_ifs at h with hsmall hlarge
  · obtain rfl : 0 = x := Option.some.inj (hzero.symm.trans h)
    refine nearest_zero (by positivity) ?_
    obtain rfl | hsmall := hsmall
    · simp
    · calc (digits : ℚ) * 10 ^ exponent ≤ 10 ^ width * 10 ^ exponent := by
            gcongr
            exact_mod_cast hwidth.le
        _ = 10 ^ (width + exponent) := by rw [zpow_add₀ (by norm_num), zpow_natCast]
        _ ≤ 10 ^ (-331 : ℤ) := zpow_le_zpow_right₀ (by norm_num) (by omega)
        _ ≤ 2 ^ (-1075 : ℤ) := decimal_underflow
  · cases h
  · have hdigits : digits ≠ 0 := fun hnone => hsmall (.inl hnone)
    rw [← powTen_quotient]
    exact nearest_of_nearestBits (Nat.mul_ne_zero hdigits (powTen_ne_zero _)) (powTen_ne_zero _) h

lemma decimalBits_le (digits width : ℕ) (exponent : ℤ) :
    decimalBits false digits width exponent ≤ infinityBits := by
  rw [decimalBits_unsigned]
  split_ifs
  · exact Nat.zero_le _
  · exact le_rfl
  · rw [nearestBits]
    split_ifs
    · exact Nat.zero_le _
    · exact Nat.min_le_right _ _

lemma exists_toRat? {bits : ℕ} (h : bits < infinityBits) :
    ∃ x, (Double.ofBits bits).toRat? = some x := by
  rw [ofBits_of_lt h]
  split_ifs
  · exact ⟨_, rfl⟩
  · exact ⟨_, rfl⟩

lemma nearestBits_lt {num den : ℕ} (hnum : num ≠ 0) (hden : den ≠ 0)
    (h : (num / den : ℚ) ≤ 2 ^ 64) : nearestBits num den < infinityBits := by
  obtain ⟨e, m, hbits, hm, hnormal, hleast⟩ := exists_nearestBits hnum hden
  have hfield : e ≤ 1087 := by
    obtain rfl | hm := hnormal
    · exact Nat.zero_le _
    · have hmant : (2 : ℚ) ^ 52 ≤ m := by
        rw [← (by norm_num [exponentUnit] : (exponentUnit : ℚ) = 2 ^ 52)]
        exact_mod_cast hm
      have hzero := abs_le.mp (hleast 0 .zero)
      rw [sub_zero, abs_of_nonneg (by positivity : (0 : ℚ) ≤ num / den)] at hzero
      have hpow : (2 : ℚ) ^ ((52 : ℤ) + (e - 1074)) ≤ 2 ^ (65 : ℤ) := by
        calc (2 : ℚ) ^ ((52 : ℤ) + (e - 1074)) = 2 ^ 52 * 2 ^ ((e : ℤ) - 1074) := by
              rw [zpow_add₀ two_ne_zero]
              rfl
          _ ≤ m * 2 ^ ((e : ℤ) - 1074) := by gcongr
          _ ≤ 2 * 2 ^ 64 := by linarith
          _ = 2 ^ (65 : ℤ) := by norm_num
      have hle := (zpow_le_zpow_iff_right₀ one_lt_two).mp hpow
      omega
  rw [hbits]
  refine (Nat.min_le_left _ _).trans_lt ?_
  simp only [infinityBits, exponentUnit] at hm ⊢
  omega

lemma decimalBits_lt {digits : ℕ} (width : ℕ) {exponent : ℤ}
    (h : (digits * 10 ^ exponent : ℚ) ≤ 2 ^ 64) :
    decimalBits false digits width exponent < infinityBits := by
  rw [decimalBits_unsigned]
  split_ifs with hsmall hlarge
  · decide
  · have hone : (1 : ℚ) ≤ digits := by
      exact_mod_cast Nat.one_le_iff_ne_zero.mpr fun hnone => hsmall (.inl hnone)
    have hpow : (10 : ℚ) ^ (64 : ℤ) ≤ 10 ^ exponent := zpow_le_zpow_right₀ (by norm_num) (by omega)
    have hover : (2 : ℚ) ^ 64 < 10 ^ (64 : ℤ) := by norm_num
    have hle : (10 : ℚ) ^ exponent ≤ digits * 10 ^ exponent :=
      le_mul_of_one_le_left (by positivity) hone
    linarith
  · have hdigits : digits ≠ 0 := fun hnone => hsmall (.inl hnone)
    rw [← powTen_quotient] at h
    exact nearestBits_lt (Nat.mul_ne_zero hdigits (powTen_ne_zero _)) (powTen_ne_zero _) h

namespace Literal

def magnitude (l : Literal) : ℚ := digitsValue l.digits * 10 ^ l.power

def magnitudeBits (l : Literal) : ℕ :=
  let digits := l.digits.dropWhile (· == '0')
  decimalBits false (digitsValue digits) digits.length l.power

lemma magnitudeBits_le (l : Literal) : l.magnitudeBits ≤ infinityBits :=
  decimalBits_le _ _ _

lemma value_eq (l : Literal) : l.value = if l.negative then -l.magnitude else l.magnitude := by
  rw [value, magnitude, signed]
  split_ifs
  · push_cast
    ring
  · rfl

lemma toRat?_toDouble (l : Literal) : l.toDouble.toRat? =
    (Double.ofBits l.magnitudeBits).toRat?.map fun x => if l.negative then -x else x := by
  have hbits : l.bits = signBit l.negative + l.magnitudeBits := by
    simp [bits, magnitudeBits, decimalBits, signBit]
  rw [toDouble, hbits]
  cases l.negative with
  | false => simp [signBit]
  | true =>
    rw [signBit, if_pos rfl, toRat?_signUnit (l.magnitudeBits_le.trans_lt (by decide))]
    rfl

lemma nearest_magnitude {s : List Char} {l : Literal} (hread : read s = some l) {x : ℚ}
    (h : (Double.ofBits l.magnitudeBits).toRat? = some x) : Nearest x l.magnitude := by
  rw [magnitude, ← digitsValue_dropZeros]
  refine nearest_of_decimalBits (digitsValue_lt fun c hc => ?_) h
  exact isDigit_of_read hread c ((List.dropWhile_sublist _).subset hc)

theorem nearest_toDouble {s : List Char} {l : Literal} (hread : read s = some l) {x : ℚ}
    (h : l.toDouble.toRat? = some x) : Nearest x l.value := by
  rw [toRat?_toDouble] at h
  obtain ⟨y, hy, rfl⟩ := Option.map_eq_some_iff.mp h
  rw [value_eq]
  split_ifs
  · exact (nearest_magnitude hread hy).neg
  · exact nearest_magnitude hread hy

lemma exists_toRat?_toDouble {l : Literal} (h : |l.value| ≤ 2 ^ 64) :
    ∃ x, l.toDouble.toRat? = some x := by
  have hmagnitude : l.magnitude ≤ 2 ^ 64 := by
    rw [value_eq] at h
    split_ifs at h
    · exact (le_abs_self _).trans ((abs_neg _).symm.trans_le h)
    · exact (le_abs_self _).trans h
  rw [magnitude, ← digitsValue_dropZeros] at hmagnitude
  have hfinite : l.magnitudeBits < infinityBits := decimalBits_lt _ hmagnitude
  obtain ⟨x, hx⟩ := exists_toRat? hfinite
  rw [toRat?_toDouble, hx, Option.map_some]
  exact ⟨_, rfl⟩

end Literal

lemma integer?_eq_some_iff {d : Double} {z : ℤ} :
    d.integer? = some z ↔ d.toRat? = some (z : ℚ) := by
  rcases d with _ | _ | ⟨negative, m, e⟩
  · simp [Double.integer?, Double.toRat?]
  · simp [Double.integer?, Double.toRat?]
  rw [Double.toRat?, Option.some_inj]
  obtain ⟨n, rfl | rfl⟩ := e.eq_nat_or_neg
  · have hinteger : (Double.finite negative m n).integer? = some (signed negative m * 2 ^ n) := by
      simp [Double.integer?, powTwo, signed_mul, Nat.mod_one]
    rw [hinteger, Option.some_inj, zpow_natCast]
    norm_cast
  · have hpos : (0 : ℚ) < 2 ^ n := by positivity
    have hinteger : (Double.finite negative m (-n)).integer? =
        if m % 2 ^ n = 0 then some (signed negative (m / 2 ^ n)) else none := by
      simp [Double.integer?, powTwo]
    rw [hinteger, zpow_neg, zpow_natCast, ← div_eq_mul_inv, div_eq_iff hpos.ne']
    norm_cast
    split_ifs with hdvd
    · obtain ⟨q, rfl⟩ := Nat.dvd_of_mod_eq_zero hdvd
      rw [Nat.mul_div_cancel_left _ (Nat.two_pow_pos n), Nat.mul_comm, signed_mul, Option.some_inj,
        mul_left_inj' (by positivity)]
    · refine iff_of_false not_false fun hvalue => hdvd ?_
      -- a fraction is left, so no integer times the divisor is the significand
      have habs := congrArg Int.natAbs hvalue
      rw [natAbs_signed, Int.natAbs_mul] at habs
      rw [habs]
      exact Nat.mul_mod_left _ _

end LayeredConfig.Number
