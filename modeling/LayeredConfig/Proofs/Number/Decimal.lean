import LayeredConfig.Number.Layout
import LayeredConfig.Number.Literal
import Mathlib.Data.List.TakeDrop
import Mathlib.Data.List.TakeWhile

namespace LayeredConfig.Number

lemma digitsValue_toDigits (n : Nat) : digitsValue (Nat.toDigits 10 n) = n :=
  Nat.ofDigitChars_toDigits (by decide) (by decide)

lemma isDigit_of_mem_decimal {n : Nat} {c : Char} (h : c ∈ Nat.toDigits 10 n) :
    c.isDigit = true :=
  Nat.isDigit_of_mem_toDigits (by decide) (by decide) h

lemma scanDigits_append {digits : List Char} (h : ∀ c ∈ digits, c.isDigit = true)
    {rest : List Char} (hrest : ∀ c ∈ rest.head?, c.isDigit = false) :
    scanDigits (digits ++ rest) = (digits, rest) := by
  have hstop : rest.takeWhile Char.isDigit = [] ∧ rest.dropWhile Char.isDigit = rest := by
    cases rest with
    | nil => exact ⟨rfl, rfl⟩
    | cons c rest => simp [hrest c rfl]
  rw [scanDigits, List.span_eq_takeWhile_dropWhile, List.takeWhile_append_of_pos h,
    List.dropWhile_append_of_pos h, hstop.1, hstop.2, List.append_nil]

lemma scanDigits_digits {s : List Char} (h : ∀ c ∈ s, c.isDigit = true) :
    scanDigits s = (s, []) := by
  have hend : ∀ c ∈ ([] : List Char).head?, c.isDigit = false := fun _ hc => nomatch hc
  have hscan := scanDigits_append h hend
  rwa [List.append_nil] at hscan

lemma scanDigits_eq {s digits rest : List Char} (h : scanDigits s = (digits, rest)) :
    s = digits ++ rest ∧ ∀ c ∈ digits, c.isDigit = true := by
  rw [scanDigits, List.span_eq_takeWhile_dropWhile] at h
  obtain ⟨rfl, rfl⟩ := Prod.mk.inj h
  exact ⟨List.takeWhile_append_dropWhile.symm, fun c hc => List.mem_takeWhile_imp hc⟩

lemma scanSign_digits {s : List Char} (h : ∀ c ∈ s, c.isDigit = true) :
    scanSign s = (false, s) := by
  rw [scanSign]
  · rintro rest rfl
    exact absurd (h '-' List.mem_cons_self) (by decide)
  · rintro rest rfl
    exact absurd (h '+' List.mem_cons_self) (by decide)

lemma read_digits {s digits : List Char} {negative : Bool} (hs : scanSign s = (negative, digits))
    (hne : digits ≠ []) (h : ∀ c ∈ digits, c.isDigit = true) :
    Literal.read s = some ⟨negative, digits, none, none⟩ := by
  simp [Literal.read, Literal.scan, hs, scanDigits_digits h, scanFraction, hne, scanExponent]

lemma scanFraction_eq_none {s rest : List Char} (h : scanFraction s = (none, rest)) : rest = s := by
  rw [scanFraction.eq_def] at h
  split at h
  · simp at h
  · exact (congrArg Prod.snd h).symm

lemma scanExponent_eq_none {s rest : List Char} (h : scanExponent s = (none, rest)) :
    rest = s := by
  rw [scanExponent.eq_def] at h
  split at h
  · split_ifs at h
    · split at h
      · simp at h
      · exact (congrArg Prod.snd h).symm
    · exact (congrArg Prod.snd h).symm
  · exact (congrArg Prod.snd h).symm

lemma scan_eq_some {s rest : List Char} {l : Literal} : Literal.scan s = some (l, rest) ↔
    ∃ unsigned behind last, scanSign s = (l.negative, unsigned) ∧
      scanDigits unsigned = (l.whole, behind) ∧ scanFraction behind = (l.fraction, last) ∧
      l.digits ≠ [] ∧ scanExponent last = (l.exponent, rest) := by
  rcases hs : scanSign s with ⟨negative, unsigned⟩
  rcases hw : scanDigits unsigned with ⟨whole, behind⟩
  rcases hf : scanFraction behind with ⟨fraction, last⟩
  rcases he : scanExponent last with ⟨exponent, remaining⟩
  simp only [Literal.scan, hs, hw, hf, he]
  constructor
  · intro h
    split_ifs at h with hempty
    obtain ⟨rfl, rfl⟩ := Prod.mk.inj (Option.some.inj h)
    exact ⟨unsigned, behind, last, rfl, hw, hf, by simpa [Literal.digits] using hempty, he⟩
  · rintro ⟨u, b, t, hu, hb, ht, hne, hr⟩
    obtain ⟨hnegative, rfl⟩ := Prod.mk.inj hu
    obtain ⟨hwhole, rfl⟩ := Prod.mk.inj (hw.symm.trans hb)
    obtain ⟨hfraction, rfl⟩ := Prod.mk.inj (hf.symm.trans ht)
    obtain ⟨hexponent, rfl⟩ := Prod.mk.inj (he.symm.trans hr)
    subst hnegative hwhole hfraction hexponent
    simpa [Literal.digits] using hne

lemma read_eq_some {s : List Char} {l : Literal} (h : Literal.read s = some l) :
    ∃ unsigned behind last, scanSign s = (l.negative, unsigned) ∧
      scanDigits unsigned = (l.whole, behind) ∧ scanFraction behind = (l.fraction, last) ∧
      l.digits ≠ [] ∧ scanExponent last = (l.exponent, []) := by
  rw [Literal.read] at h
  split at h
  · rename_i l' hscan
    obtain rfl := Option.some.inj h
    exact scan_eq_some.mp hscan
  · simp at h

lemma isPower_iff {s : List Char} : isPower s = true ↔ (scanExponent s).2 = [] := by
  cases s with
  | nil => exact iff_of_true rfl rfl
  | cons c rest =>
    rcases hdigits : scanDigits (scanSign rest).2 with ⟨digits, behind⟩
    by_cases hletter : c = 'e' ∨ c = 'E'
    · cases digits with
      | nil => simp [isPower, scanExponent, scanPower, hdigits, hletter]
      | cons d digits => simp [isPower, scanExponent, scanPower, hdigits, hletter]
    · simp [isPower, scanExponent, hletter]

lemma isNumeric_iff_scan {s : List Char} :
    isNumeric s = true ↔ ∃ l, Literal.scan s = some (l, []) := by
  rcases hwhole : scanDigits (scanSign s).2 with ⟨whole, behind⟩
  rcases hfraction : scanFraction behind with ⟨fraction, last⟩
  rcases hexponent : scanExponent last with ⟨exponent, rest⟩
  have hpower : isPower last = true ↔ rest = [] := by rw [isPower_iff, hexponent]
  simp only [isNumeric, Literal.scan, hwhole, hfraction, hexponent, Bool.and_eq_true, hpower]
  cases (whole ++ fraction.getD []).isEmpty <;> simp

lemma isNumeric_iff_read {s : List Char} : isNumeric s = true ↔ (Literal.read s).isSome := by
  rw [isNumeric_iff_scan, Literal.read]
  rcases Literal.scan s with _ | ⟨l, _ | ⟨c, rest⟩⟩ <;> simp

lemma exists_read_of_isNumeric {s : List Char} (h : isNumeric s = true) :
    ∃ l, Literal.read s = some l := Option.isSome_iff_exists.mp (isNumeric_iff_read.mp h)

lemma numeral?_eq_read (s : List Char) : numeral? s = Literal.read s := by
  rw [numeral?]
  split_ifs with h
  · rfl
  · rw [isNumeric_iff_read, Bool.not_eq_true, Option.isSome_eq_false_iff,
      Option.isNone_iff_eq_none] at h
    exact h.symm

lemma read_plain {s : List Char} {l : Literal} (h : Literal.read s = some l)
    (hplain : l.isPlain = true) :
    scanSign s = (l.negative, l.whole) ∧ l.whole ≠ [] ∧ ∀ c ∈ l.whole, c.isDigit = true := by
  obtain ⟨unsigned, behind, last, hs, hw, hf, hne, he⟩ := read_eq_some h
  obtain ⟨negative, whole, fraction, exponent⟩ := l
  simp only [Literal.isPlain, Bool.and_eq_true, Option.isNone_iff_eq_none] at hplain
  obtain ⟨rfl, rfl⟩ := hplain
  obtain rfl := scanFraction_eq_none hf
  obtain rfl := scanExponent_eq_none he
  obtain ⟨rfl, hall⟩ := scanDigits_eq hw
  rw [List.append_nil] at hs
  exact ⟨hs, by simpa [Literal.digits] using hne, hall⟩

def wholeLiteral (n : Int) : Literal := ⟨decide (n < 0), Nat.toDigits 10 n.natAbs, none, none⟩

lemma toList_toString (n : Int) :
    (toString n).toList = minus (decide (n < 0)) (Nat.toDigits 10 n.natAbs) := by
  cases n with
  | ofNat m =>
    have hnot : ¬ Int.ofNat m < 0 := Int.not_lt.mpr (Int.natCast_nonneg m)
    rw [minus, decide_eq_false hnot]
    change (toString m).toList = _
    rw [Nat.toString_eq_ofList_toDigits, String.toList_ofList]
    rfl
  | negSucc m =>
    have hlt : Int.negSucc m < 0 := Int.negSucc_lt_zero m
    rw [minus, decide_eq_true hlt]
    change ("-" ++ toString (m + 1)).toList = _
    rw [String.toList_append, Nat.toString_eq_ofList_toDigits, String.toList_ofList,
      String.toList_ofList, if_pos rfl]
    rfl

lemma toString_ne_nil (n : Int) : (toString n).toList ≠ [] := by
  rw [toList_toString, minus]
  split
  · exact List.cons_ne_nil _ _
  · exact Nat.toDigits_ne_nil

lemma scanSign_toString (n : Int) :
    scanSign (toString n).toList = (decide (n < 0), Nat.toDigits 10 n.natAbs) := by
  rw [toList_toString, minus]
  by_cases hneg : n < 0
  · simp only [hneg, decide_true, if_true]
    rfl
  · simp only [hneg, decide_false, Bool.false_eq_true, if_false]
    exact scanSign_digits fun _ => isDigit_of_mem_decimal

lemma read_toString (n : Int) : Literal.read (toString n).toList = some (wholeLiteral n) :=
  read_digits (scanSign_toString n) Nat.toDigits_ne_nil fun _ => isDigit_of_mem_decimal

lemma plainValue_wholeLiteral (n : Int) : (wholeLiteral n).plainValue = n := by
  rw [Literal.plainValue, wholeLiteral, digitsValue_toDigits, signed]
  split_ifs with hneg
  · rw [decide_eq_true_eq] at hneg
    omega
  · rw [decide_eq_true_eq] at hneg
    omega

lemma toInt_bounds (n : Int64) : minInt ≤ n.toInt ∧ n.toInt ≤ maxInt :=
  ⟨n.le_toInt, Int.le_of_lt_add_one n.toInt_lt⟩

lemma int64?_eq_some_iff {exact : Int} {n : Int64} : int64? exact = some n ↔ n.toInt = exact := by
  rw [int64?]
  constructor
  · intro h
    split_ifs at h with hfits
    obtain rfl := Option.some.inj h
    exact Int64.toInt_ofInt_of_le hfits.1 (Int.lt_add_one_of_le hfits.2)
  · rintro rfl
    rw [if_pos (toInt_bounds n), Int64.ofInt_toInt]

lemma Literal.int64?_eq_some_iff {l : Literal} {n : Int64} :
    l.int64? = some n ↔ l.isPlain = true ∧ l.plainValue = n.toInt := by
  rw [Literal.int64?]
  split_ifs with hplain
  · rw [Number.int64?_eq_some_iff, eq_comm, and_iff_right hplain]
  · simp [hplain]

lemma int64?_wholeLiteral (n : Int64) : (wholeLiteral n.toInt).int64? = some n :=
  Literal.int64?_eq_some_iff.mpr ⟨rfl, plainValue_wholeLiteral _⟩

inductive Decimal : List Char → Int → Prop
  | plain {digits : List Char} (hne : digits ≠ []) (h : ∀ c ∈ digits, c.isDigit = true) :
    Decimal digits (digitsValue digits)
  | plus {digits : List Char} (hne : digits ≠ []) (h : ∀ c ∈ digits, c.isDigit = true) :
    Decimal ('+' :: digits) (digitsValue digits)
  | minus {digits : List Char} (hne : digits ≠ []) (h : ∀ c ∈ digits, c.isDigit = true) :
    Decimal ('-' :: digits) (-digitsValue digits)

lemma decimal_of_scanSign {s digits rest : List Char} {negative : Bool} (hne : digits ≠ [])
    (h : ∀ c ∈ digits, c.isDigit = true) (hs : scanSign s = (negative, digits ++ rest)) :
    ∃ front, s = front ++ rest ∧ Decimal front (signed negative (digitsValue digits)) := by
  rw [scanSign.eq_def] at hs
  split at hs
  all_goals obtain ⟨rfl, rfl⟩ := Prod.mk.inj hs
  · exact ⟨'-' :: digits, rfl, .minus hne h⟩
  · exact ⟨'+' :: digits, rfl, .plus hne h⟩
  · exact ⟨digits, rfl, .plain hne h⟩

lemma decimal_iff_read {s : List Char} {n : Int} :
    Decimal s n ↔ ∃ l, Literal.read s = some l ∧ l.isPlain = true ∧ l.plainValue = n := by
  constructor
  · rintro (⟨hne, h⟩ | ⟨hne, h⟩ | ⟨hne, h⟩)
    · exact ⟨_, read_digits (scanSign_digits h) hne h, rfl, rfl⟩
    · exact ⟨_, read_digits rfl hne h, rfl, rfl⟩
    · exact ⟨_, read_digits rfl hne h, rfl, rfl⟩
  · rintro ⟨l, hread, hplain, rfl⟩
    obtain ⟨hsign, hne, h⟩ := read_plain hread hplain
    rw [← List.append_nil l.whole] at hsign
    obtain ⟨front, rfl, hfront⟩ := decimal_of_scanSign hne h hsign
    rwa [List.append_nil]

end LayeredConfig.Number
