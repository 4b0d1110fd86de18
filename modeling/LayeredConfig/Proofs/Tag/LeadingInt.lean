import LayeredConfig.Proofs.Number.Casting
import LayeredConfig.Proofs.Number.Longest
import LayeredConfig.Tag.Standard

namespace LayeredConfig.Tag

open Number Text

section

variable {s : String} {p rest : List Char} {l : Literal}

lemma leadingInt_of_scan (h : Literal.scan (trim s.toList) = some (l, rest)) :
    leadingInt s = l.int64?.getD l.toDouble.toInt64 := by
  rw [leadingInt, h]

lemma toInt_leadingInt (hscan : Literal.scan (trim s.toList) = some (l, rest))
    (hread : Literal.read p = some l) {n : ℤ} (h : Decimal p n) :
    (leadingInt s).toInt = saturated n := by
  obtain ⟨l', hread', hplain, rfl⟩ := decimal_iff_read.mp h
  obtain rfl := Option.some.inj (hread.symm.trans hread')
  rw [leadingInt_of_scan hscan]
  rcases hword : l.int64? with _ | word
  · have hbeyond : l.plainValue < minInt ∨ maxInt < l.plainValue := by
      rw [Literal.int64?, if_pos hplain, Number.int64?] at hword
      split_ifs at hword with hrange
      omega
    exact (Literal.isCast_toInt64 hread).toInt_eq (Literal.value_of_isPlain hplain) hbeyond
  · obtain ⟨-, hvalue⟩ := Literal.int64?_eq_some_iff.mp hword
    obtain ⟨hlow, hhigh⟩ := toInt_bounds word
    rw [Option.getD_some, hvalue, saturated_eq_self hlow hhigh]

lemma isCast_leadingInt (hscan : Literal.scan (trim s.toList) = some (l, rest))
    (hread : Literal.read p = some l) (h : ∀ n, ¬ Decimal p n) : l.IsCast (leadingInt s) := by
  have hword : l.int64? = none := by
    rw [Option.eq_none_iff_forall_ne_some]
    intro word hword
    obtain ⟨hplain, hvalue⟩ := Literal.int64?_eq_some_iff.mp hword
    exact h _ (decimal_iff_read.mpr ⟨l, hread, hplain, rfl⟩)
  rw [leadingInt_of_scan hscan, hword]
  exact Literal.isCast_toInt64 hread

end

/-- The longest start of a text that is a number decides: digits with a sign are taken as they are,
and other literals by way of their doubles. Among the bytes of the text the same literal is found,
and it ends where the bytes of the rest begin, so never within a character. -/
theorem leadingInt_longest (s : String) :
    (∀ p, p <+: trim s.toList → isNumeric p = false) ∧
      Literal.scan (octets (trim s.toList)) = none ∧ leadingInt s = 0 ∨
    ∃ p rest l, trim s.toList = p ++ rest ∧ Longest (trim s.toList) p ∧
      Literal.scan (octets (trim s.toList)) = some (l, octets rest) ∧ Literal.read p = some l ∧
      (∀ n, Decimal p n → (leadingInt s).toInt = saturated n) ∧
      ((∀ n, ¬ Decimal p n) → l.IsCast (leadingInt s)) := by
  have hoctets := scan_octets (trim s.toList)
  rcases hscan : Literal.scan (trim s.toList) with _ | ⟨l, rest⟩
  · rw [hscan] at hoctets
    refine .inl ⟨not_numeric_of_scan hscan, hoctets, ?_⟩
    rw [leadingInt, hscan]
  · rw [hscan] at hoctets
    obtain ⟨p, hsplit, hp, hlongest⟩ := longest_of_scan hscan
    have hread := Literal.read_of_scan hp
    exact .inr ⟨p, rest, l, hsplit, hlongest, hoctets, hread, fun n => toInt_leadingInt hscan hread,
      isCast_leadingInt hscan hread⟩

example : leadingInt " +5é" = 5 ∧ leadingInt "2.5E2px" = 250 ∧ leadingInt "4e+" = 4 := by decide

end LayeredConfig.Tag
