import LayeredConfig.Proofs.Number.Decimal
import Mathlib.Algebra.Order.Field.Power
import Mathlib.Data.Rat.Cast.Order

namespace LayeredConfig.Number

def Literal.value (l : Literal) : ℚ := signed l.negative (digitsValue l.digits) * 10 ^ l.power

lemma Literal.value_of_isPlain {l : Literal} (h : l.isPlain = true) : l.value = l.plainValue := by
  obtain ⟨negative, whole, fraction, exponent⟩ := l
  simp only [isPlain, Bool.and_eq_true, Option.isNone_iff_eq_none] at h
  obtain ⟨rfl, rfl⟩ := h
  simp [value, power, Literal.digits, plainValue]

lemma digitsValue_cons (c : Char) (digits : List Char) :
    digitsValue (c :: digits) =
      10 ^ digits.length * (c.toNat - '0'.toNat) + digitsValue digits := by
  have hfirst : 10 * 0 + (c.toNat - '0'.toNat) = c.toNat - '0'.toNat := by omega
  exact (congrArg (Nat.ofDigitChars 10 digits) hfirst).trans Nat.ofDigitChars_eq_ofDigitChars_zero

lemma digitsValue_lt {digits : List Char} (h : ∀ c ∈ digits, c.isDigit = true) :
    digitsValue digits < 10 ^ digits.length := by
  induction digits with
  | nil => exact Nat.one_pos
  | cons c digits ih =>
    obtain ⟨hc, h⟩ := List.forall_mem_cons.mp h
    have hdigit : c.toNat - '0'.toNat ≤ 9 :=
      Nat.sub_le_of_le_add (Char.isDigit_iff_toNat.mp hc).2
    have hstep := Nat.mul_le_mul_left (10 ^ digits.length) hdigit
    have hrest := ih h
    rw [digitsValue_cons, List.length_cons, Nat.pow_succ]
    omega

lemma digitsValue_dropZeros (digits : List Char) :
    digitsValue (digits.dropWhile (· == '0')) = digitsValue digits := by
  induction digits with
  | nil => rfl
  | cons c digits ih =>
    rw [List.dropWhile_cons]
    split_ifs with hc
    · rw [ih, digitsValue_cons, eq_of_beq hc, Nat.sub_self, Nat.mul_zero, Nat.zero_add]
    · rfl

inductive Scaled : List Char → ℚ → Prop
  | whole {s : List Char} {n : Int} (h : Decimal s n) : Scaled s n
  | power {s t : List Char} {n k : Int} {mark : Char} (hs : Decimal s n)
    (hmark : mark = 'e' ∨ mark = 'E') (ht : Decimal t k) : Scaled (s ++ mark :: t) (n * 10 ^ k)

lemma scanSign_digits_append {digits : List Char} (hne : digits ≠ [])
    (h : ∀ c ∈ digits, c.isDigit = true) (rest : List Char) :
    scanSign (digits ++ rest) = (false, digits ++ rest) := by
  obtain ⟨c, more, rfl⟩ := List.exists_cons_of_ne_nil hne
  have hc := h c List.mem_cons_self
  rw [scanSign]
  · rintro rest heq
    obtain ⟨rfl, -⟩ := List.cons.inj heq
    exact absurd hc (by decide)
  · rintro rest heq
    obtain ⟨rfl, -⟩ := List.cons.inj heq
    exact absurd hc (by decide)

lemma Decimal.sign {s : List Char} {n : Int} (h : Decimal s n) :
    ∃ negative digits, digits ≠ [] ∧ (∀ c ∈ digits, c.isDigit = true) ∧
      n = signed negative (digitsValue digits) ∧
      ∀ rest, scanSign (s ++ rest) = (negative, digits ++ rest) := by
  obtain ⟨hne, h⟩ | ⟨hne, h⟩ | ⟨hne, h⟩ := h
  · exact ⟨false, _, hne, h, rfl, scanSign_digits_append hne h⟩
  · exact ⟨false, _, hne, h, rfl, fun _ => rfl⟩
  · exact ⟨true, _, hne, h, rfl, fun _ => rfl⟩

lemma scanPower_decimal {t : List Char} {k : Int} (h : Decimal t k) :
    ∃ exponent, scanPower t = some (exponent, []) ∧
      k = signed exponent.negative (digitsValue exponent.digits) := by
  obtain ⟨negative, digits, hne, hdigits, hk, hsign⟩ := h.sign
  have hscan := hsign []
  rw [List.append_nil, List.append_nil] at hscan
  refine ⟨⟨negative, digits⟩, ?_, hk⟩
  simp [scanPower, hscan, scanDigits_digits hdigits, hne]

lemma scanPower_eq {t rest : List Char} {e : Exponent} (h : scanPower t = some (e, rest)) :
    ∃ front, t = front ++ rest ∧ Decimal front (signed e.negative (digitsValue e.digits)) := by
  rcases hs : scanSign t with ⟨negative, unsigned⟩
  rcases hd : scanDigits unsigned with ⟨digits, behind⟩
  simp only [scanPower, hs, hd] at h
  split_ifs at h with hempty
  obtain ⟨rfl, rfl⟩ := Prod.mk.inj (Option.some.inj h)
  obtain ⟨rfl, hdigits⟩ := scanDigits_eq hd
  exact decimal_of_scanSign (by simpa using hempty) hdigits hs

lemma scanExponent_eq_some {s rest : List Char} {e : Exponent}
    (h : scanExponent s = (some e, rest)) :
    ∃ mark t, s = mark :: t ∧ (mark = 'e' ∨ mark = 'E') ∧ scanPower t = some (e, rest) := by
  rw [scanExponent.eq_def] at h
  split at h
  · rename_i mark t
    split_ifs at h with hmark
    · split at h
      · rename_i exponent behind hpower
        obtain ⟨⟨⟩, rfl⟩ := Prod.mk.inj h
        exact ⟨mark, t, rfl, hmark, hpower⟩
      · simp at h
    · simp at h
  · simp at h

lemma scanFraction_eq_some {s digits rest : List Char}
    (h : scanFraction s = (some digits, rest)) :
    ∃ t, s = '.' :: t ∧ scanDigits t = (digits, rest) := by
  rw [scanFraction.eq_def] at h
  split at h
  · rename_i t
    obtain ⟨⟨⟩, rfl⟩ := Prod.mk.inj h
    exact ⟨t, rfl, rfl⟩
  · simp at h

lemma mem_of_scanSign {s rest : List Char} {negative : Bool} (h : scanSign s = (negative, rest))
    {c : Char} (hc : c ∈ rest) : c ∈ s := by
  rw [scanSign.eq_def] at h
  split at h
  all_goals obtain ⟨-, rfl⟩ := Prod.mk.inj h
  · exact List.mem_cons_of_mem _ hc
  · exact List.mem_cons_of_mem _ hc
  · exact hc

lemma isDigit_of_read {s : List Char} {l : Literal} (h : Literal.read s = some l) :
    ∀ c ∈ l.digits, c.isDigit = true := by
  obtain ⟨unsigned, behind, last, -, hw, hf, -⟩ := read_eq_some h
  intro c hc
  obtain hc | hc := List.mem_append.mp hc
  · exact (scanDigits_eq hw).2 c hc
  · rcases hfraction : l.fraction with _ | digits
    · simp [hfraction] at hc
    · rw [hfraction] at hf hc
      obtain ⟨t, -, ht⟩ := scanFraction_eq_some hf
      exact (scanDigits_eq ht).2 c hc

lemma fraction_eq_none {s : List Char} {l : Literal} (h : Literal.read s = some l)
    (hpoint : '.' ∉ s) : l.fraction = none := by
  obtain ⟨unsigned, behind, last, hs, hw, hf, -⟩ := read_eq_some h
  rcases hfraction : l.fraction with _ | digits
  · rfl
  · rw [hfraction] at hf
    obtain ⟨t, rfl, -⟩ := scanFraction_eq_some hf
    obtain ⟨rfl, -⟩ := scanDigits_eq hw
    exact absurd (mem_of_scanSign hs (by simp)) hpoint

lemma scaled_of_read {s : List Char} {l : Literal} (h : Literal.read s = some l)
    (hfraction : l.fraction = none) : Scaled s l.value := by
  obtain ⟨unsigned, behind, last, hs, hw, hf, hne, he⟩ := read_eq_some h
  obtain ⟨negative, whole, fraction, exponent⟩ := l
  obtain rfl : fraction = none := hfraction
  obtain rfl := scanFraction_eq_none hf
  obtain ⟨rfl, hdigits⟩ := scanDigits_eq hw
  have hwhole : whole ≠ [] := by simpa [Literal.digits] using hne
  obtain ⟨front, rfl, hfront⟩ := decimal_of_scanSign hwhole hdigits hs
  cases exponent with
  | none =>
    obtain rfl := scanExponent_eq_none he
    simpa [Literal.value, Literal.power, Literal.digits] using Scaled.whole hfront
  | some e =>
    obtain ⟨mark, t, rfl, hmark, hpower⟩ := scanExponent_eq_some he
    obtain ⟨back, rfl, hback⟩ := scanPower_eq hpower
    simpa [Literal.value, Literal.power, Literal.digits] using Scaled.power hfront hmark hback

lemma read_power {s t : List Char} {n k : Int} {mark : Char} (hs : Decimal s n)
    (hmark : mark = 'e' ∨ mark = 'E') (ht : Decimal t k) :
    ∃ l, Literal.read (s ++ mark :: t) = some l ∧ l.fraction = none ∧ l.value = n * 10 ^ k := by
  obtain ⟨negative, digits, hne, hdigits, rfl, hsign⟩ := hs.sign
  obtain ⟨exponent, hpower, rfl⟩ := scanPower_decimal ht
  have hfollow : ∀ c ∈ (mark :: t).head?, c.isDigit = false := by
    rintro c ⟨⟩
    obtain rfl | rfl := hmark
    all_goals rfl
  have hfraction : scanFraction (mark :: t) = (none, mark :: t) := by
    obtain rfl | rfl := hmark
    all_goals rfl
  refine ⟨⟨negative, digits, none, some exponent⟩, ?_, rfl, ?_⟩
  · simp [Literal.read, Literal.scan, hsign, scanDigits_append hdigits hfollow, hfraction, hne,
      scanExponent, hmark, hpower]
  · simp [Literal.value, Literal.power, Literal.digits]

lemma scaled_iff_read {s : List Char} {v : ℚ} :
    Scaled s v ↔ ∃ l, Literal.read s = some l ∧ l.fraction = none ∧ l.value = v := by
  constructor
  · rintro (h | ⟨hs, hmark, ht⟩)
    · obtain ⟨l, hread, hplain, rfl⟩ := decimal_iff_read.mp h
      have hfraction := (Bool.and_eq_true_iff.mp hplain).1
      exact ⟨l, hread, Option.isNone_iff_eq_none.mp hfraction, Literal.value_of_isPlain hplain⟩
    · exact read_power hs hmark ht
  · rintro ⟨l, hread, hfraction, rfl⟩
    exact scaled_of_read hread hfraction

lemma Scaled.unique {s : List Char} {v w : ℚ} (hv : Scaled s v) (hw : Scaled s w) : v = w := by
  obtain ⟨l, hread, -, rfl⟩ := scaled_iff_read.mp hv
  obtain ⟨l', hread', -, rfl⟩ := scaled_iff_read.mp hw
  rw [Option.some.inj (hread.symm.trans hread')]

end LayeredConfig.Number
