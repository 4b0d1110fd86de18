import LayeredConfig.Formula.Operand
import LayeredConfig.Proofs.Number.Scaled
import LayeredConfig.Proofs.Outline.Scalars
import LayeredConfig.Schema.Conformance
import Mathlib.Computability.RegularExpressions

/-! The texts that are numbers, as a regular expression, and that every reader of numbers takes
these and no others. -/

namespace LayeredConfig.Number

open RegularExpression

namespace Numeral

def oneOf (cs : List Char) : RegularExpression Char := (cs.map char).sum

def perhaps (r : RegularExpression Char) : RegularExpression Char := r + 1

def digit : RegularExpression Char := oneOf "0123456789".toList

def digits : RegularExpression Char := digit * digit.star

def sign : RegularExpression Char := perhaps (oneOf ['+', '-'])

def mantissa : RegularExpression Char :=
  digits * perhaps (char '.' * digit.star) + char '.' * digits

def exponent : RegularExpression Char := perhaps (oneOf ['e', 'E'] * (sign * digits))

end Numeral

open Numeral

/-- The regular expression `[+-]?(D+(\.D*)?|\.D+)([eE][+-]?D+)?`, where `D` is a digit. -/
def numeral : RegularExpression Char := sign * mantissa * exponent

variable {s : List Char}

lemma mem_oneOf {cs : List Char} : s ∈ (oneOf cs).matches' ↔ ∃ c ∈ cs, s = [c] := by
  induction cs with
  | nil => simp [oneOf]
  | cons c cs ih =>
    rw [oneOf] at ih ⊢
    rw [List.map_cons, List.sum_cons, matches'_add, Language.mem_add, ih, List.exists_mem_cons_iff]
    rfl

lemma mem_perhaps {r : RegularExpression Char} :
    s ∈ (perhaps r).matches' ↔ s ∈ r.matches' ∨ s = [] := by
  rw [perhaps, matches'_add, Language.mem_add]
  rfl

lemma mem_digitChars {c : Char} : c ∈ "0123456789".toList ↔ c.isDigit = true := by
  constructor
  · have hall : "0123456789".toList.all Char.isDigit = true := by decide
    exact List.all_eq_true.mp hall c
  · intro h
    obtain ⟨hlow, hhigh⟩ := Char.isDigit_iff_toNat.mp h
    have hrange : ∀ n, 48 ≤ n → n ≤ 57 → Char.ofNat n ∈ "0123456789".toList := by decide
    exact Char.ofNat_toNat c ▸ hrange c.toNat hlow hhigh

lemma mem_digit : s ∈ digit.matches' ↔ ∃ c, c.isDigit = true ∧ s = [c] := by
  simp only [digit, mem_oneOf, mem_digitChars]

lemma mem_star_digit : s ∈ digit.star.matches' ↔ ∀ c ∈ s, c.isDigit = true := by
  rw [matches'_star, Language.mem_kstar]
  constructor
  · rintro ⟨parts, rfl, hparts⟩ c hc
    obtain ⟨part, hpart, hc⟩ := List.mem_flatten.mp hc
    obtain ⟨d, hd, rfl⟩ := mem_digit.mp (hparts part hpart)
    rwa [List.mem_singleton.mp hc]
  · intro h
    refine ⟨s.map ([·]), by simp [← List.flatMap_def], fun part hpart => ?_⟩
    obtain ⟨c, hc, rfl⟩ := List.mem_map.mp hpart
    exact mem_digit.mpr ⟨c, h c hc, rfl⟩

lemma mem_digits : s ∈ digits.matches' ↔ s ≠ [] ∧ ∀ c ∈ s, c.isDigit = true := by
  rw [digits, matches'_mul, Language.mem_mul]
  constructor
  · rintro ⟨first, hfirst, rest, hrest, rfl⟩
    obtain ⟨c, hc, rfl⟩ := mem_digit.mp hfirst
    exact ⟨List.cons_ne_nil c rest, List.forall_mem_cons.mpr ⟨hc, mem_star_digit.mp hrest⟩⟩
  · rintro ⟨hne, h⟩
    obtain ⟨c, rest, rfl⟩ := List.exists_cons_of_ne_nil hne
    obtain ⟨hc, hrest⟩ := List.forall_mem_cons.mp h
    exact ⟨[c], mem_digit.mpr ⟨c, hc, rfl⟩, rest, mem_star_digit.mpr hrest, rfl⟩

lemma mem_sign : s ∈ sign.matches' ↔ s = ['+'] ∨ s = ['-'] ∨ s = [] := by
  rw [sign, mem_perhaps, mem_oneOf]
  simp [or_assoc]

lemma mem_whole : s ∈ (sign * digits).matches' ↔ ∃ n, Decimal s n := by
  simp only [matches'_mul, Language.mem_mul, mem_digits, mem_sign]
  constructor
  · rintro ⟨front, hfront, back, ⟨hne, h⟩, rfl⟩
    obtain rfl | rfl | rfl := hfront
    · exact ⟨_, .plus hne h⟩
    · exact ⟨_, .minus hne h⟩
    · exact ⟨_, .plain hne h⟩
  · rintro ⟨n, ⟨hne, h⟩ | ⟨hne, h⟩ | ⟨hne, h⟩⟩
    · exact ⟨[], .inr (.inr rfl), s, ⟨hne, h⟩, rfl⟩
    · exact ⟨['+'], .inl rfl, _, ⟨hne, h⟩, rfl⟩
    · exact ⟨['-'], .inr (.inl rfl), _, ⟨hne, h⟩, rfl⟩

lemma mem_exponent : s ∈ exponent.matches' ↔ ∃ e, scanExponent s = (e, []) := by
  rw [exponent, mem_perhaps, matches'_mul, Language.mem_mul]
  constructor
  · rintro (⟨front, hfront, back, hback, rfl⟩ | rfl)
    · obtain ⟨mark, hmark, rfl⟩ := mem_oneOf.mp hfront
      obtain ⟨n, hn⟩ := mem_whole.mp hback
      obtain ⟨e, hpower, -⟩ := scanPower_decimal hn
      have hletter : mark = 'e' ∨ mark = 'E' := by simpa using hmark
      exact ⟨some e, by simp [scanExponent, hletter, hpower]⟩
    · exact ⟨none, rfl⟩
  · rintro ⟨_ | e, he⟩
    · exact .inr (scanExponent_eq_none he).symm
    · obtain ⟨mark, t, rfl, hmark, hpower⟩ := scanExponent_eq_some he
      obtain ⟨front, rfl, hfront⟩ := scanPower_eq hpower
      refine .inl ⟨[mark], mem_oneOf.mpr ⟨mark, by simpa using hmark, rfl⟩, front ++ [], ?_, rfl⟩
      rw [List.append_nil]
      exact mem_whole.mpr ⟨_, hfront⟩

def pointed : Option (List Char) → List Char
  | none => []
  | some digits => '.' :: digits

lemma mem_mantissa : s ∈ mantissa.matches' ↔ ∃ whole fraction, s = whole ++ pointed fraction ∧
    whole ++ fraction.getD [] ≠ [] ∧ ∀ c ∈ whole ++ fraction.getD [], c.isDigit = true := by
  simp only [mantissa, matches'_add, matches'_mul, Language.mem_add, Language.mem_mul, mem_digits,
    mem_perhaps, mem_star_digit]
  constructor
  · rintro (⟨whole, ⟨hne, hwhole⟩, back, hback, rfl⟩ | ⟨front, hfront, digits, ⟨hne, h⟩, rfl⟩)
    · obtain ⟨point, hpoint, digits, h, rfl⟩ | rfl := hback
      · obtain rfl : point = ['.'] := hpoint
        exact ⟨whole, some digits, rfl, by simp [hne], List.forall_mem_append.mpr ⟨hwhole, h⟩⟩
      · exact ⟨whole, none, rfl, by simpa using hne, by simpa using hwhole⟩
    · obtain rfl : front = ['.'] := hfront
      exact ⟨[], some digits, rfl, hne, h⟩
  · rintro ⟨whole, fraction, rfl, hne, h⟩
    obtain ⟨hwhole, hfraction⟩ := List.forall_mem_append.mp h
    cases fraction with
    | none =>
      have hsome : whole ≠ [] := by simpa using hne
      exact .inl ⟨whole, ⟨hsome, hwhole⟩, [], .inr rfl, rfl⟩
    | some digits =>
      by_cases hsome : whole = []
      · subst hsome
        exact .inr ⟨['.'], rfl, digits, ⟨hne, hfraction⟩, rfl⟩
      · exact .inl ⟨whole, ⟨hsome, hwhole⟩, '.' :: digits, .inl ⟨['.'], rfl, digits, hfraction, rfl⟩, rfl⟩

lemma scanSign_split {rest : List Char} {negative : Bool} (h : scanSign s = (negative, rest)) :
    ∃ front ∈ sign.matches', s = front ++ rest := by
  rw [scanSign.eq_def] at h
  split at h
  all_goals obtain ⟨-, rfl⟩ := Prod.mk.inj h
  · exact ⟨['-'], mem_sign.mpr (.inr (.inl rfl)), rfl⟩
  · exact ⟨['+'], mem_sign.mpr (.inl rfl), rfl⟩
  · exact ⟨[], mem_sign.mpr (.inr (.inr rfl)), rfl⟩

lemma scanFraction_split {rest : List Char} {fraction : Option (List Char)}
    (h : scanFraction s = (fraction, rest)) :
    s = pointed fraction ++ rest ∧ ∀ c ∈ fraction.getD [], c.isDigit = true := by
  cases fraction with
  | none =>
    obtain rfl := scanFraction_eq_none h
    exact ⟨rfl, fun _ hc => absurd hc List.not_mem_nil⟩
  | some digits =>
    obtain ⟨t, rfl, ht⟩ := scanFraction_eq_some h
    obtain ⟨rfl, hdigits⟩ := scanDigits_eq ht
    exact ⟨rfl, hdigits⟩

lemma mem_numeral_of_read {l : Literal} (h : Literal.read s = some l) : s ∈ numeral.matches' := by
  obtain ⟨unsigned, behind, last, hs, hw, hf, hne, he⟩ := read_eq_some h
  obtain ⟨front, hfront, rfl⟩ := scanSign_split hs
  obtain ⟨rfl, hwhole⟩ := scanDigits_eq hw
  obtain ⟨rfl, hfraction⟩ := scanFraction_split hf
  have hmantissa : l.whole ++ pointed l.fraction ∈ mantissa.matches' :=
    mem_mantissa.mpr ⟨_, _, rfl, hne, List.forall_mem_append.mpr ⟨hwhole, hfraction⟩⟩
  have hmem : front ++ (l.whole ++ pointed l.fraction) ++ last ∈ numeral.matches' :=
    Language.append_mem_mul (Language.append_mem_mul hfront hmantissa) (mem_exponent.mpr ⟨_, he⟩)
  simpa only [List.append_assoc] using hmem

lemma isDigit_exponentMark {c : Char} (h : c = 'e' ∨ c = 'E') : c.isDigit = false := by
  obtain rfl | rfl := h
  all_goals rfl

lemma head_of_scanExponent {e : Option Exponent} (h : scanExponent s = (e, [])) :
    ∀ c ∈ s.head?, c = 'e' ∨ c = 'E' := by
  cases e with
  | none =>
    obtain rfl := scanExponent_eq_none h
    rintro c ⟨⟩
  | some e =>
    obtain ⟨mark, t, rfl, hmark, -⟩ := scanExponent_eq_some h
    rintro c ⟨⟩
    exact hmark

section

variable {whole : List Char} {fraction : Option (List Char)}
  (hne : whole ++ fraction.getD [] ≠ [])
  (hdigits : ∀ c ∈ whole ++ fraction.getD [], c.isDigit = true)
include hne hdigits

lemma scanSign_append {front : List Char} (hfront : front ∈ sign.matches') (tail : List Char) :
    ∃ negative, scanSign (front ++ (whole ++ pointed fraction ++ tail)) =
      (negative, whole ++ pointed fraction ++ tail) := by
  obtain rfl | rfl | rfl := mem_sign.mp hfront
  · exact ⟨false, rfl⟩
  · exact ⟨true, rfl⟩
  · refine ⟨false, ?_⟩
    obtain ⟨hwhole, -⟩ := List.forall_mem_append.mp hdigits
    by_cases hsome : whole = []
    · subst hsome
      cases fraction with
      | none => exact absurd rfl hne
      | some digits => rfl
    · rw [List.nil_append, List.append_assoc]
      exact scanSign_digits_append hsome hwhole _

end

lemma scanFraction_pointed {tail : List Char} {fraction : Option (List Char)}
    (hdigits : ∀ c ∈ fraction.getD [], c.isDigit = true)
    (htail : ∀ c ∈ tail.head?, c = 'e' ∨ c = 'E') :
    scanFraction (pointed fraction ++ tail) = (fraction, tail) := by
  cases fraction with
  | none =>
    refine scanFraction.eq_2 tail fun rest heq => ?_
    obtain hpoint | hpoint := htail '.' (heq ▸ rfl)
    all_goals exact absurd hpoint (by decide)
  | some digits =>
    have hscan : scanDigits (digits ++ tail) = (digits, tail) :=
      scanDigits_append hdigits fun c hc => isDigit_exponentMark (htail c hc)
    simp only [pointed, List.cons_append, scanFraction, hscan]

lemma isNumeric_iff : isNumeric s = true ↔ s ∈ numeral.matches' := by
  constructor
  · intro h
    obtain ⟨l, hread⟩ := exists_read_of_isNumeric h
    exact mem_numeral_of_read hread
  · simp only [numeral, matches'_mul, Language.mem_mul]
    rintro ⟨_, ⟨front, hfront, middle, hmiddle, rfl⟩, tail, htail, rfl⟩
    obtain ⟨e, he⟩ := mem_exponent.mp htail
    obtain ⟨whole, fraction, rfl, hne, hdigits⟩ := mem_mantissa.mp hmiddle
    obtain ⟨hwhole, hfraction⟩ := List.forall_mem_append.mp hdigits
    obtain ⟨negative, hsign⟩ := scanSign_append hne hdigits hfront tail
    have hletter := head_of_scanExponent he
    have hfollow : ∀ c ∈ (pointed fraction ++ tail).head?, c.isDigit = false := by
      cases fraction with
      | none => exact fun c hc => isDigit_exponentMark (hletter c hc)
      | some digits =>
        rintro c ⟨⟩
        rfl
    have hempty : (whole ++ fraction.getD []).isEmpty = false := List.isEmpty_eq_false_iff.mpr hne
    have hread : Literal.read (front ++ (whole ++ pointed fraction ++ tail)) =
        some ⟨negative, whole, fraction, e⟩ := by
      simp only [Literal.read, Literal.scan, hsign]
      simp only [List.append_assoc, scanDigits_append hwhole hfollow,
        scanFraction_pointed hfraction hletter, hempty, he, Bool.false_eq_true, if_false]
    rw [List.append_assoc, isNumeric_iff_read, hread]
    rfl

lemma operandOf_text_iff {operator text : String} :
    (∃ x, Formula.operandOf operator (.string text) = .ok x) ↔
      isNumeric (Text.trim text.toList) = true := by
  rw [isNumeric_iff_read, Formula.operandOf, Formula.Operand.ofNode?, Formula.Operand.ofText?,
    numeral?_eq_read]
  cases Literal.read (Text.trim text.toList) with
  | none => simp
  | some l => simp

lemma check_number_iff {name : Schema.NumberName} {path text : String} :
    Schema.check (.number name) path (.string text) = .ok () ↔
      isNumeric (Text.trim text.toList) = true := by
  rw [Schema.check, Schema.expect, Schema.isNumber]
  simp

theorem numerals_agree :
    (∀ s, isNumeric s = true ↔ s ∈ numeral.matches') ∧
    ∀ text : String,
      ((Outline.readScalar text.toList).kind = .int ∨
        (Outline.readScalar text.toList).kind = .float ↔
          Text.trim text.toList ∈ numeral.matches') ∧
      (∀ operator, (∃ x, Formula.operandOf operator (.string text) = .ok x) ↔
        Text.trim text.toList ∈ numeral.matches') ∧
      (∀ name path, Schema.check (.number name) path (.string text) = .ok () ↔
        Text.trim text.toList ∈ numeral.matches') := by
  refine ⟨fun s => isNumeric_iff, fun text => ?_⟩
  simp only [← isNumeric_iff]
  exact ⟨Outline.kind_readScalar_iff, fun operator => operandOf_text_iff,
    fun name path => check_number_iff⟩

end LayeredConfig.Number
