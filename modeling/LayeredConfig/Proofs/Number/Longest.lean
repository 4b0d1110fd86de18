import LayeredConfig.Proofs.Number.Scaled

/-! The scanner takes the longest literal at the start of a text. -/

namespace LayeredConfig.Number

def isNumeralChar (c : Char) : Bool := c.isDigit || ['+', '-', '.', 'e', 'E'].contains c

def Covers (rest r : List Char) : Prop := r.takeWhile isNumeralChar <+: rest

variable {s rest r : List Char}

lemma covers_nil (rest : List Char) : Covers rest [] := List.nil_prefix

lemma covers_of_start (h : r <+: rest) : Covers rest r := (List.takeWhile_prefix _).trans h

lemma covers_cons_of_neg {c : Char} (hc : isNumeralChar c = false) : Covers rest (c :: r) := by
  rw [Covers, List.takeWhile_cons_of_neg (by simp [hc])]
  exact List.nil_prefix

lemma covers_cons_of_pos {c : Char} (hc : isNumeralChar c = true) :
    Covers rest (c :: r) ↔ ∃ rest', rest = c :: rest' ∧ Covers rest' r := by
  rw [Covers, List.takeWhile_cons_of_pos hc, List.cons_prefix_iff]
  rfl

lemma Covers.append (h : Covers rest r) (front : List Char) :
    Covers (front ++ rest) (front ++ r) := by
  induction front with
  | nil => exact h
  | cons c front ih =>
    cases hc : isNumeralChar c with
    | true => exact (covers_cons_of_pos hc).mpr ⟨_, rfl, ih⟩
    | false => exact covers_cons_of_neg hc

lemma covers_dropWhile (s : List Char) : Covers [] (s.dropWhile isNumeralChar) := by
  have hnot := List.head?_dropWhile_not isNumeralChar s
  cases hs : s.dropWhile isNumeralChar with
  | nil => exact covers_nil []
  | cons c t =>
    rw [hs] at hnot
    exact covers_cons_of_neg (by simpa using hnot)

lemma isNumeralChar_of_isDigit {c : Char} (h : c.isDigit = true) : isNumeralChar c = true := by
  simp [isNumeralChar, h]

lemma Covers.head_not_digit (h : Covers rest r) (hrest : ∀ c ∈ rest.head?, c.isDigit = false) :
    ∀ c ∈ r.head?, c.isDigit = false := by
  intro c hc
  obtain ⟨r, rfl⟩ := List.head?_eq_some_iff.mp hc
  by_contra hdigit
  rw [Bool.not_eq_false] at hdigit
  obtain ⟨rest, rfl, -⟩ := (covers_cons_of_pos (isNumeralChar_of_isDigit hdigit)).mp h
  exact absurd (hrest c rfl) (by simp [hdigit])

lemma scanDigits_head (h : scanDigits s = (r, rest)) : ∀ c ∈ rest.head?, c.isDigit = false := by
  rw [scanDigits, List.span_eq_takeWhile_dropWhile] at h
  obtain ⟨-, rfl⟩ := Prod.mk.inj h
  intro c hc
  have hnot := List.head?_dropWhile_not Char.isDigit s
  rw [Option.mem_def.mp hc] at hnot
  simpa using hnot

lemma scanSign_unsigned (h : Covers s r) (hs : scanSign s = (false, s)) :
    scanSign r = (false, r) := by
  rw [scanSign]
  · rintro r rfl
    obtain ⟨s, rfl, -⟩ := (covers_cons_of_pos (by decide)).mp h
    simp [scanSign] at hs
  · rintro r rfl
    obtain ⟨s, rfl, -⟩ := (covers_cons_of_pos (by decide)).mp h
    simp [scanSign] at hs

lemma scanSign_stops {negative : Bool} (h : scanSign s = (negative, rest)) :
    ∃ front, s = front ++ rest ∧ ∀ r, Covers rest r → scanSign (front ++ r) = (negative, r) := by
  have hs := h
  rw [scanSign.eq_def] at h
  split at h
  all_goals obtain ⟨rfl, rfl⟩ := Prod.mk.inj h
  · exact ⟨['-'], rfl, fun _ _ => rfl⟩
  · exact ⟨['+'], rfl, fun _ _ => rfl⟩
  · exact ⟨[], rfl, fun r hr => scanSign_unsigned hr hs⟩

lemma scanDigits_stops {digits : List Char} (h : scanDigits s = (digits, rest)) :
    s = digits ++ rest ∧ ∀ r, Covers rest r → scanDigits (digits ++ r) = (digits, r) := by
  obtain ⟨hs, hdigits⟩ := scanDigits_eq h
  exact ⟨hs, fun r hr => scanDigits_append hdigits (hr.head_not_digit (scanDigits_head h))⟩

lemma scanFraction_stops {fraction : Option (List Char)}
    (h : scanFraction s = (fraction, rest)) :
    ∃ front, s = front ++ rest ∧
      ∀ r, Covers rest r → scanFraction (front ++ r) = (fraction, r) := by
  cases fraction with
  | none =>
    obtain rfl := scanFraction_eq_none h
    refine ⟨[], rfl, fun r hr => scanFraction.eq_2 r ?_⟩
    rintro r rfl
    obtain ⟨rest, rfl, -⟩ := (covers_cons_of_pos (by decide)).mp hr
    simp [scanFraction] at h
  | some digits =>
    obtain ⟨t, rfl, ht⟩ := scanFraction_eq_some h
    obtain ⟨rfl, hstops⟩ := scanDigits_stops ht
    exact ⟨'.' :: digits, rfl, fun r hr => by simp [scanFraction, hstops r hr]⟩

lemma scanSign_cons {c : Char} (hminus : c ≠ '-') (hplus : c ≠ '+') (s : List Char) :
    scanSign (c :: s) = (false, c :: s) := by
  simp [scanSign, hminus, hplus]

lemma Covers.scanSign (h : Covers s r) : Covers (scanSign s).2 (scanSign r).2 := by
  cases r with
  | nil => exact covers_nil _
  | cons c r =>
    by_cases hsign : c = '-' ∨ c = '+'
    · obtain rfl | rfl := hsign
      all_goals
        obtain ⟨s, rfl, hs⟩ := (covers_cons_of_pos (by decide)).mp h
        exact hs
    · obtain ⟨hminus, hplus⟩ := not_or.mp hsign
      rw [scanSign_cons hminus hplus]
      cases hc : isNumeralChar c with
      | false => exact covers_cons_of_neg hc
      | true =>
        obtain ⟨s, rfl, hs⟩ := (covers_cons_of_pos hc).mp h
        rwa [scanSign_cons hminus hplus]

lemma scanPower_eq_none_iff :
    scanPower s = none ↔ ∀ c ∈ (scanSign s).2.head?, c.isDigit = false := by
  rw [scanPower]
  cases hs : (scanSign s).2 with
  | nil => simp [hs, scanDigits, List.span_eq_takeWhile_dropWhile]
  | cons c t =>
    cases hc : c.isDigit with
    | false => simp [hs, hc, scanDigits, List.span_eq_takeWhile_dropWhile]
    | true => simp [hs, hc, scanDigits, List.span_eq_takeWhile_dropWhile]

lemma scanPower_stops {e : Exponent} (h : scanPower s = some (e, rest)) :
    ∃ front, s = front ++ rest ∧
      ∀ r, Covers rest r → scanPower (front ++ r) = some (e, r) := by
  rcases hs : scanSign s with ⟨negative, unsigned⟩
  rcases hd : scanDigits unsigned with ⟨digits, behind⟩
  simp only [scanPower, hs, hd] at h
  split_ifs at h with hempty
  obtain ⟨rfl, rfl⟩ := Prod.mk.inj (Option.some.inj h)
  obtain ⟨front, rfl, hsign⟩ := scanSign_stops hs
  obtain ⟨rfl, hdigits⟩ := scanDigits_stops hd
  refine ⟨front ++ digits, by simp, fun r hr => ?_⟩
  rw [List.append_assoc, scanPower, hsign _ (hr.append digits)]
  simp [hdigits r hr, hempty]

lemma scanExponent_stops {exponent : Option Exponent} (h : scanExponent s = (exponent, rest)) :
    ∃ front, s = front ++ rest ∧
      ∀ r, Covers rest r → scanExponent (front ++ r) = (exponent, r) := by
  cases exponent with
  | none =>
    obtain rfl := scanExponent_eq_none h
    refine ⟨[], rfl, fun r hr => ?_⟩
    cases r with
    | nil => rfl
    | cons c r =>
      by_cases hmark : c = 'e' ∨ c = 'E'
      · have hc : isNumeralChar c = true := by
          obtain rfl | rfl := hmark
          all_goals rfl
        obtain ⟨rest, rfl, hrest⟩ := (covers_cons_of_pos hc).mp hr
        have hpower : scanPower rest = none := by
          rw [scanExponent, if_pos hmark] at h
          split at h
          · simp at h
          · assumption
        have hcovered : scanPower r = none := by
          rw [scanPower_eq_none_iff] at hpower ⊢
          exact hrest.scanSign.head_not_digit hpower
        simp [scanExponent, hmark, hcovered]
      · simp [scanExponent, hmark]
  | some e =>
    obtain ⟨mark, t, rfl, hmark, hpower⟩ := scanExponent_eq_some h
    obtain ⟨front, rfl, hstops⟩ := scanPower_stops hpower
    exact ⟨mark :: front, rfl, fun r hr => by simp [scanExponent, hmark, hstops r hr]⟩

namespace Literal

lemma scan_stops {l : Literal} (h : scan s = some (l, rest)) :
    ∃ front, s = front ++ rest ∧ ∀ r, Covers rest r → scan (front ++ r) = some (l, r) := by
  obtain ⟨unsigned, behind, last, hs, hw, hf, hne, he⟩ := scan_eq_some.mp h
  obtain ⟨sign, rfl, hsign⟩ := scanSign_stops hs
  obtain ⟨rfl, hwhole⟩ := scanDigits_stops hw
  obtain ⟨point, rfl, hpoint⟩ := scanFraction_stops hf
  obtain ⟨power, rfl, hpower⟩ := scanExponent_stops he
  refine ⟨sign ++ (l.whole ++ (point ++ power)), by simp, fun r hr => ?_⟩
  simp only [List.append_assoc]
  have hlast := hr.append power
  have hbehind := hlast.append point
  exact scan_eq_some.mpr ⟨_, _, _, hsign _ (hbehind.append l.whole), hwhole _ hbehind,
    hpoint _ hlast, hne, hpower r hr⟩

lemma scan_ne_none {c : Char} {t : List Char} (hc : c.isDigit = true)
    (h : (scanSign s).2 = c :: t ∨ (scanSign s).2 = '.' :: c :: t) : scan s ≠ none := by
  have hpoint : '.'.isDigit = false := rfl
  obtain h | h := h
  · simp [scan, h, hc, scanDigits, List.span_eq_takeWhile_dropWhile]
  · simp [scan, h, hc, hpoint, scanDigits, List.span_eq_takeWhile_dropWhile, scanFraction]

lemma first_of_scan {l : Literal} (h : scan s = some (l, rest)) : ∃ c t, c.isDigit = true ∧
    ((scanSign s).2 = c :: t ∨ (scanSign s).2 = '.' :: c :: t) := by
  obtain ⟨unsigned, behind, last, hs, hw, hf, hne, -⟩ := scan_eq_some.mp h
  obtain ⟨rfl, hwhole⟩ := scanDigits_eq hw
  rw [hs]
  rcases hl : l.whole with _ | ⟨c, whole⟩
  · rcases hfraction : l.fraction with _ | fraction
    · simp [digits, hl, hfraction] at hne
    · rw [hfraction] at hf
      obtain ⟨t, rfl, ht⟩ := scanFraction_eq_some hf
      obtain ⟨rfl, hdigits⟩ := scanDigits_eq ht
      cases fraction with
      | nil => simp [digits, hl, hfraction] at hne
      | cons c fraction => exact ⟨c, _, hdigits c List.mem_cons_self, .inr rfl⟩
  · exact ⟨c, _, hwhole c (hl ▸ List.mem_cons_self), .inl rfl⟩

lemma scan_eq_none (h : scan s = none) (hr : Covers s r) : scan r = none := by
  by_contra hsome
  obtain ⟨⟨l, rest⟩, hscan⟩ := Option.ne_none_iff_exists'.mp hsome
  obtain ⟨c, t, hc, hfirst⟩ := first_of_scan hscan
  have hcovers := hr.scanSign
  obtain hfirst | hfirst := hfirst
  · rw [hfirst] at hcovers
    obtain ⟨t, heq, -⟩ := (covers_cons_of_pos (isNumeralChar_of_isDigit hc)).mp hcovers
    exact scan_ne_none hc (.inl heq) h
  · rw [hfirst] at hcovers
    obtain ⟨t, heq, hrest⟩ := (covers_cons_of_pos (by decide)).mp hcovers
    obtain ⟨t, rfl, -⟩ := (covers_cons_of_pos (isNumeralChar_of_isDigit hc)).mp hrest
    exact scan_ne_none hc (.inr heq) h

lemma read_of_scan {l : Literal} (h : scan s = some (l, [])) : read s = some l := by
  rw [read, h]

lemma isNumeralChar_of_scan {l : Literal} (h : scan s = some (l, [])) :
    ∀ c ∈ s, isNumeralChar c = true := by
  -- The scanner cannot go beyond a character that is in no number.
  have hcovers : Covers (s.takeWhile isNumeralChar) s := List.prefix_rfl
  rcases hscan : scan (s.takeWhile isNumeralChar) with _ | ⟨l', rest⟩
  · simp [scan_eq_none hscan hcovers] at h
  · obtain ⟨front, hfront, hstops⟩ := scan_stops hscan
    have hs : front ++ (rest ++ s.dropWhile isNumeralChar) = s := by
      rw [← List.append_assoc, ← hfront, List.takeWhile_append_dropWhile]
    have hrest := (covers_dropWhile s).append rest
    rw [List.append_nil] at hrest
    have hstop := hstops _ hrest
    rw [hs, h] at hstop
    obtain ⟨-, hnil⟩ := Prod.mk.inj (Option.some.inj hstop)
    exact List.dropWhile_eq_nil_iff.mp (List.append_eq_nil_iff.mp hnil.symm).2

end Literal

structure Longest (s p : List Char) : Prop where
  start : p <+: s
  numeric : isNumeric p = true
  longest : ∀ q, q <+: s → isNumeric q = true → q.length ≤ p.length

lemma longest_of_scan {l : Literal} (h : Literal.scan s = some (l, rest)) :
    ∃ p, s = p ++ rest ∧ Literal.scan p = some (l, []) ∧ Longest s p := by
  obtain ⟨p, rfl, hstops⟩ := Literal.scan_stops h
  have hp : Literal.scan p = some (l, []) := by simpa using hstops [] (covers_nil rest)
  refine ⟨p, rfl, hp, List.prefix_append p rest, isNumeric_iff_scan.mpr ⟨l, hp⟩, ?_⟩
  intro q hq hnumeric
  by_contra! hlonger
  -- more of the rest stands behind `p`, and there the scanner stops as it did before the whole rest
  obtain ⟨more, rfl⟩ := List.prefix_of_prefix_length_le (List.prefix_append p rest) hq hlonger.le
  have hmore : more <+: rest := (List.prefix_append_right_inj p).mp hq
  obtain ⟨l', hwhole⟩ := isNumeric_iff_scan.mp hnumeric
  rw [hstops more (covers_of_start hmore)] at hwhole
  obtain ⟨-, rfl⟩ := Prod.mk.inj (Option.some.inj hwhole)
  simp at hlonger

lemma not_numeric_of_scan (h : Literal.scan s = none) : ∀ p, p <+: s → isNumeric p = false := by
  intro p hp
  rw [Bool.eq_false_iff, Ne, isNumeric_iff_scan, Literal.scan_eq_none h (covers_of_start hp)]
  simp

def octets (s : List Char) : List Char := (s.flatMap String.utf8EncodeChar).map Char.ofUInt8

lemma octets_append (s t : List Char) : octets (s ++ t) = octets s ++ octets t := by
  simp [octets]

lemma toNat_ofUInt8 (byte : UInt8) : (Char.ofUInt8 byte).toNat = byte.toNat := rfl

lemma toNat_lt_of_isNumeralChar {c : Char} (h : isNumeralChar c = true) : c.toNat < 128 := by
  rw [isNumeralChar, Bool.or_eq_true, List.contains_iff_mem] at h
  obtain h | h := h
  · exact (Char.isDigit_iff_toNat.mp h).2.trans_lt (by decide)
  · simp only [List.mem_cons, List.not_mem_nil, or_false] at h
    obtain rfl | rfl | rfl | rfl | rfl := h
    all_goals decide

lemma octets_cons_of_lt {c : Char} (h : c.toNat < 128) (s : List Char) :
    octets (c :: s) = c :: octets s := by
  have hencode : String.utf8EncodeChar c = [UInt8.ofNat c.toNat] := if_pos (Nat.le_of_lt_succ h)
  have hbyte : Char.ofUInt8 (UInt8.ofNat c.toNat) = c := by
    apply Char.toNat_inj.mp
    rw [toNat_ofUInt8, UInt8.toNat_ofNat', Nat.mod_eq_of_lt (by omega)]
  simp [octets, hencode, hbyte]

lemma octets_cons_of_ge {c : Char} (h : 128 ≤ c.toNat) (s : List Char) :
    ∃ first behind, octets (c :: s) = first :: behind ∧ isNumeralChar first = false := by
  -- A character of several bytes begins with one that no number has.
  obtain ⟨byte, bytes, hencode, hbyte⟩ :
      ∃ byte bytes, String.utf8EncodeChar c = byte :: bytes ∧ 128 ≤ byte.toNat := by
    have hlarge : ¬ c.val.toNat ≤ 127 := not_le.mpr h
    rw [String.utf8EncodeChar, if_neg hlarge]
    split_ifs
    all_goals
      refine ⟨_, _, rfl, ?_⟩
      rw [UInt8.toNat_ofNat']
      omega
  refine ⟨Char.ofUInt8 byte, (bytes ++ s.flatMap String.utf8EncodeChar).map Char.ofUInt8, ?_, ?_⟩
  · simp [octets, hencode]
  · by_contra hnumeral
    rw [Bool.not_eq_false] at hnumeral
    have hlt := toNat_lt_of_isNumeralChar hnumeral
    rw [toNat_ofUInt8] at hlt
    omega

lemma covers_octets (s : List Char) : Covers s (octets s) := by
  induction s with
  | nil => exact covers_nil []
  | cons c s ih =>
    obtain hsmall | hlarge := Nat.lt_or_ge c.toNat 128
    · rw [octets_cons_of_lt hsmall]
      cases hc : isNumeralChar c with
      | true => exact (covers_cons_of_pos hc).mpr ⟨s, rfl, ih⟩
      | false => exact covers_cons_of_neg hc
    · obtain ⟨first, behind, heq, hfirst⟩ := octets_cons_of_ge hlarge s
      rw [heq]
      exact covers_cons_of_neg hfirst

lemma octets_eq_self (h : ∀ c ∈ s, isNumeralChar c = true) : octets s = s := by
  induction s with
  | nil => rfl
  | cons c s ih =>
    obtain ⟨hc, hs⟩ := List.forall_mem_cons.mp h
    rw [octets_cons_of_lt (toNat_lt_of_isNumeralChar hc), ih hs]

lemma scan_octets (s : List Char) :
    Literal.scan (octets s) = (Literal.scan s).map fun (l, rest) => (l, octets rest) := by
  rcases hscan : Literal.scan s with _ | ⟨l, rest⟩
  · exact Literal.scan_eq_none hscan (covers_octets s)
  · obtain ⟨p, rfl, hstops⟩ := Literal.scan_stops hscan
    have hp : Literal.scan p = some (l, []) := by simpa using hstops [] (covers_nil rest)
    rw [octets_append, octets_eq_self (Literal.isNumeralChar_of_scan hp),
      hstops _ (covers_octets rest)]
    rfl

end LayeredConfig.Number
