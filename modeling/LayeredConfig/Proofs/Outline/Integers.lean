import LayeredConfig.Proofs.Number.Casting
import LayeredConfig.Proofs.Outline.WrittenLine
import Mathlib

/-! Number literals without a point. -/

namespace LayeredConfig.Outline

open Number Text

lemma not_blank_of_scaled {s : List Char} {v : ℚ} (h : Scaled s v) :
    ∀ c ∈ s, isBlank c = false := by
  have hdecimal : ∀ {t : List Char} {n : Int}, Decimal t n → ∀ c ∈ t, isBlank c = false := by
    rintro t n (⟨-, h⟩ | ⟨-, h⟩ | ⟨-, h⟩)
    · exact fun c hc => isDigit_not_blank (h c hc)
    · exact List.forall_mem_cons.mpr ⟨rfl, fun c hc => isDigit_not_blank (h c hc)⟩
    · exact List.forall_mem_cons.mpr ⟨rfl, fun c hc => isDigit_not_blank (h c hc)⟩
  obtain h | ⟨hs, hmark, ht⟩ := h
  · exact hdecimal h
  · refine List.forall_mem_append.mpr ⟨hdecimal hs, List.forall_mem_cons.mpr ⟨?_, hdecimal ht⟩⟩
    obtain rfl | rfl := hmark
    all_goals rfl

lemma numberNode_eq_int_iff {l : Literal} (hfraction : l.fraction = none) {n : Int64} :
    numberNode l = .int n ↔ l.int64? = some n ∨ l.int64? = none ∧
      ∃ z, l.toDouble.integer? = some z ∧ minInt ≤ z ∧ z ≤ maxInt + 1 ∧ clamp z = n := by
  have hsome : ¬ l.fraction.isSome = true := by simp [hfraction]
  rw [numberNode, if_neg hsome]
  cases l.int64? with
  | some m => simp
  | none =>
    cases l.toDouble.integer? with
    | none => simp
    | some z =>
      simp only
      split_ifs with hrange
      · simp [hrange]
      · refine iff_of_false (by simp) ?_
        rintro (⟨⟨⟩⟩ | ⟨-, _, ⟨⟩, hlow, hhigh, -⟩)
        exact hrange ⟨hlow, hhigh⟩

lemma clamp_of_le {z : ℤ} (hlow : minInt ≤ z) (hhigh : z ≤ maxInt) : (clamp z).toInt = z :=
  (toInt_clamp z).trans (saturated_eq_self hlow hhigh)

lemma clamp_over : (clamp (maxInt + 1)).toInt = maxInt := by decide

lemma nearest_maxInt {x : ℚ} (h : Nearest x maxInt) : x = (maxInt + 1 : ℤ) := by
  have hdist := h.least _ isDouble_over
  have hone : |(maxInt : ℚ) - (maxInt + 1 : ℤ)| = 1 := by
    push_cast
    norm_num
  rw [hone] at hdist
  obtain ⟨hbelow, habove⟩ := abs_le.mp hdist
  have hmax : (2 : ℚ) ^ 62 + 1 ≤ maxInt := by norm_num [maxInt]
  obtain ⟨k, rfl⟩ := h.double.coarse (by linarith)
  have hlow : -1 ≤ maxInt - 1024 * k := by exact_mod_cast hbelow
  have hhigh : maxInt - 1024 * k ≤ 1 := by exact_mod_cast habove
  have hk : 1024 * k = maxInt + 1 := by
    simp only [maxInt] at *
    omega
  rw [hk]

section

variable {s : List Char} {l : Literal} {n : Int64}

lemma value_of_int64? (h : l.int64? = some n) : l.value = n.toInt := by
  obtain ⟨hplain, hn⟩ := Literal.int64?_eq_some_iff.mp h
  rw [Literal.value_of_isPlain hplain, hn]

lemma numberNode_of_value (hread : Literal.read s = some l) (hfraction : l.fraction = none)
    (hvalue : l.value = n.toInt) (hkept : IsDouble l.value ∨ l.value = maxInt) :
    numberNode l = .int n := by
  rw [numberNode_eq_int_iff hfraction]
  obtain ⟨hlow, hhigh⟩ := toInt_bounds n
  cases hword : l.int64? with
  | some m =>
    left
    have hm : m.toInt = n.toInt := by exact_mod_cast (value_of_int64? hword).symm.trans hvalue
    rw [Int64.toInt_inj.mp hm]
  | none =>
    right
    have hsmall : |l.value| ≤ 2 ^ 64 := by
      simp only [minInt, maxInt] at hlow hhigh
      rw [hvalue, abs_le]
      constructor
      · exact_mod_cast (by omega : -2 ^ 64 ≤ n.toInt)
      · exact_mod_cast (by omega : n.toInt ≤ 2 ^ 64)
    obtain ⟨x, hx⟩ := Literal.exists_toRat?_toDouble hsmall
    have hnearest := Literal.nearest_toDouble hread hx
    obtain hdouble | hmax := hkept
    · refine ⟨rfl, n.toInt, integer?_eq_some_iff.mpr ?_, hlow, by omega, ?_⟩
      · rw [hx, hnearest.eq_of_isDouble hdouble, hvalue]
      · exact Int64.toInt_inj.mp (clamp_of_le hlow hhigh)
    · refine ⟨rfl, maxInt + 1, integer?_eq_some_iff.mpr ?_, by decide, le_rfl, ?_⟩
      · rw [hmax] at hnearest
        rw [hx, nearest_maxInt hnearest]
      · refine Int64.toInt_inj.mp (clamp_over.trans ?_)
        exact_mod_cast hmax.symm.trans hvalue

lemma decimal_of_int64? (hread : Literal.read s = some l) (h : l.int64? = some n) :
    Decimal s n.toInt := by
  obtain ⟨hplain, hn⟩ := Literal.int64?_eq_some_iff.mp h
  exact decimal_iff_read.mpr ⟨l, hread, hplain, hn⟩

lemma int64?_of_decimal (hread : Literal.read s = some l) (h : Decimal s n.toInt) :
    l.int64? = some n := by
  obtain ⟨l', hread', hplain, hn⟩ := decimal_iff_read.mp h
  obtain rfl := Option.some.inj (hread.symm.trans hread')
  exact Literal.int64?_eq_some_iff.mpr ⟨hplain, hn⟩

lemma value_of_decimal (hread : Literal.read s = some l) (h : Decimal s n.toInt) :
    n.toInt = l.value :=
  (value_of_int64? (int64?_of_decimal hread h)).symm

def Rounded (v : ℚ) (n : Int64) : Prop :=
  ∃ z : ℤ, Nearest z v ∧ minInt ≤ z ∧ z ≤ maxInt + 1 ∧ clamp z = n

lemma decimal_or_rounded (hread : Literal.read s = some l) (hfraction : l.fraction = none)
    (h : numberNode l = .int n) : Decimal s n.toInt ∨ Rounded l.value n := by
  obtain hword | ⟨-, z, hz, hlow, hhigh, hn⟩ := (numberNode_eq_int_iff hfraction).mp h
  · exact .inl (decimal_of_int64? hread hword)
  · exact .inr ⟨z, Literal.nearest_toDouble hread (integer?_eq_some_iff.mp hz), hlow, hhigh, hn⟩

def Kept (s : List Char) (v : ℚ) : Prop :=
  (∃ n : Int64, Decimal s n.toInt) ∨ v = maxInt ∨ IsDouble v ∧ v ≠ maxInt + 1

lemma kept_of_rounded {v : ℚ} (h : Rounded v n) (hn : n.toInt = v) : v = maxInt ∨
    IsDouble v ∧ v ≠ maxInt + 1 := by
  obtain ⟨z, hnearest, hlow, hhigh, rfl⟩ := h
  obtain hfits | hover := hhigh.lt_or_eq
  · have hz := clamp_of_le hlow (Int.lt_add_one_iff.mp hfits)
    rw [hz] at hn
    subst hn
    exact .inr ⟨hnearest.double, by exact_mod_cast hfits.ne⟩
  · rw [hover, clamp_over] at hn
    exact .inl hn.symm

lemma numberNode_of_kept (hread : Literal.read s = some l) (hfraction : l.fraction = none)
    (hvalue : n.toInt = l.value) (hkept : Kept s l.value) : numberNode l = .int n := by
  obtain ⟨m, hm⟩ | hmax | ⟨hdouble, -⟩ := hkept
  · have hn : m.toInt = n.toInt := by exact_mod_cast (value_of_decimal hread hm).trans hvalue.symm
    rw [numberNode_eq_int_iff hfraction, int64?_of_decimal hread hm, Int64.toInt_inj.mp hn]
    exact .inl rfl
  · exact numberNode_of_value hread hfraction hvalue.symm (.inr hmax)
  · exact numberNode_of_value hread hfraction hvalue.symm (.inl hdouble)

lemma value_of_kept (hread : Literal.read s = some l) (hfraction : l.fraction = none)
    (h : numberNode l = .int n) (hkept : Kept s l.value) : n.toInt = l.value := by
  have hword : ∃ m : Int64, m.toInt = l.value := by
    obtain ⟨m, hm⟩ | hmax | ⟨hdouble, hne⟩ := id hkept
    · exact ⟨m, value_of_decimal hread hm⟩
    · exact ⟨Int64.maxValue, hmax.symm⟩
    · obtain hdecimal | ⟨z, hnearest, hlow, hhigh, -⟩ := decimal_or_rounded hread hfraction h
      · exact ⟨n, value_of_decimal hread hdecimal⟩
      · have hz : z = l.value := hnearest.eq_of_isDouble hdouble
        have hover : z ≠ maxInt + 1 := by
          rintro rfl
          exact hne (by exact_mod_cast hz.symm)
        exact ⟨clamp z, by rw [clamp_of_le hlow (by omega), hz]⟩
  obtain ⟨m, hm⟩ := hword
  obtain rfl := Node.int.inj ((numberNode_of_kept hread hfraction hm hkept).symm.trans h)
  exact hm

lemma kept_of_value (hread : Literal.read s = some l) (hfraction : l.fraction = none)
    (h : numberNode l = .int n) (hvalue : n.toInt = l.value) : Kept s l.value := by
  obtain hdecimal | hrounded := decimal_or_rounded hread hfraction h
  · exact .inl ⟨n, hdecimal⟩
  · exact .inr (kept_of_rounded hrounded hvalue)

/-- A literal without a point denotes one number. If it is read as an integer, then as this number
exactly when its digits are a word by themselves or its double keeps it; it is a rounded one
otherwise. -/
theorem readScalar_exact (hnumeric : isNumeric s = true) (hpoint : '.' ∉ s) :
    ∃ v : ℚ, (∀ w, Scaled s w ↔ w = v) ∧
      (∀ n : Int64, readScalar s = .int n → (n.toInt = v ↔ Kept s v)) ∧
      (∀ n : Int64, readScalar s = .int n → n.toInt ≠ v → Rounded v n) ∧
      ∀ n : Int64, n.toInt = v → Kept s v → readScalar s = .int n := by
  obtain ⟨l, hread⟩ := exists_read_of_isNumeric hnumeric
  have hfraction := fraction_eq_none hread hpoint
  have hscaled := scaled_of_read hread hfraction
  rw [readScalar_of_read hread (not_blank_of_scaled hscaled)]
  refine ⟨l.value, fun w => ⟨fun hw => hw.unique hscaled, ?_⟩, fun n hn => ?_, fun n hn hne => ?_, ?_⟩
  · rintro rfl
    exact hscaled
  · exact ⟨kept_of_value hread hfraction hn, value_of_kept hread hfraction hn⟩
  · exact (decimal_or_rounded hread hfraction hn).resolve_left fun hdecimal =>
      hne (value_of_decimal hread hdecimal)
  · exact fun n hvalue hkept => numberNode_of_kept hread hfraction hvalue hkept

end

lemma scaled_thousand : Scaled ['1', 'e', '3'] 1000 := by
  have hone : Decimal ['1'] 1 := .plain (by decide) (List.forall_mem_singleton.mpr rfl)
  have hthree : Decimal ['3'] 3 := .plain (by decide) (List.forall_mem_singleton.mpr rfl)
  have hpower := Scaled.power hone (.inl rfl) hthree
  norm_num at hpower
  exact hpower

theorem readScalar_exact_thousand : isNumeric ['1', 'e', '3'] = true ∧ '.' ∉ ['1', 'e', '3'] ∧
    readScalar ['1', 'e', '3'] = .int 1000 := by
  have hnumeric : isNumeric ['1', 'e', '3'] = true := by decide
  have hpoint : '.' ∉ ['1', 'e', '3'] := by decide
  obtain ⟨v, hv, -, -, hkept⟩ := readScalar_exact hnumeric hpoint
  obtain rfl := (hv _).mp scaled_thousand
  have hdouble : IsDouble 1000 := ⟨1000, 0, by norm_num, by norm_num, by norm_num, by norm_num⟩
  exact ⟨hnumeric, hpoint, hkept 1000 rfl (.inr (.inr ⟨hdouble, by norm_num [maxInt]⟩))⟩

theorem readScalar_alters :
    isNumeric "9223372036854775808".toList = true ∧ '.' ∉ "9223372036854775808".toList ∧
    readScalar "9223372036854775808".toList = .int 9223372036854775807 ∧
    Scaled "9223372036854775808".toList 9223372036854775808 ∧
    ¬ Scaled "9223372036854775808".toList 9223372036854775807 ∧
    isNumeric "9007199254740993e0".toList = true ∧ '.' ∉ "9007199254740993e0".toList ∧
    readScalar "9007199254740993e0".toList = .int 9007199254740992 ∧
    Scaled "9007199254740993e0".toList 9007199254740993 ∧
    ¬ Scaled "9007199254740993e0".toList 9007199254740992 := by
  have hover : Decimal "9223372036854775808".toList 9223372036854775808 :=
    decimal_iff_read.mpr ⟨⟨false, "9223372036854775808".toList, none, none⟩, by cbv, rfl, by cbv⟩
  have hfine : Decimal "9007199254740993".toList 9007199254740993 :=
    decimal_iff_read.mpr ⟨⟨false, "9007199254740993".toList, none, none⟩, by cbv, rfl, by cbv⟩
  have hzero : Decimal ['0'] 0 := .plain (by decide) (List.forall_mem_singleton.mpr rfl)
  have hlarge : Scaled "9223372036854775808".toList 9223372036854775808 := by
    simpa using Scaled.whole hover
  have hodd : Scaled "9007199254740993e0".toList 9007199254740993 := by
    simpa using Scaled.power hfine (.inl rfl) hzero
  refine ⟨by cbv, by decide, rfl, hlarge, fun h => ?_, by cbv, by decide, rfl, hodd, fun h => ?_⟩
  · exact absurd (hlarge.unique h) (by norm_num)
  · exact absurd (hodd.unique h) (by norm_num)

end LayeredConfig.Outline
