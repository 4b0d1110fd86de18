import LayeredConfig.Proofs.Formula.Scanning
import LayeredConfig.Proofs.Number.Decimal
import Mathlib

/-! Scanning undoes writing: lexemes that are spelled out with blanks between them are read back as
they were. -/

namespace LayeredConfig.Formula

open Number Text

def escape (quote c : Char) : List Char := if c = quote ∨ c = '\\' then ['\\', c] else [c]

def Spells (s : List Char) : Lexeme → Prop
  | .int n => 0 ≤ n.toInt ∧ s = (toString n.toInt).toList
  | .float _ => False
  | .text t => ∃ quote ∈ ['"', '\''], s = quote :: (t.toList.flatMap (escape quote) ++ [quote])
  | .bool true => s.map Char.toLower = ['t', 'r', 'u', 'e']
  | .bool false => s.map Char.toLower = ['f', 'a', 'l', 's', 'e']
  | .null => s.map Char.toLower = ['n', 'u', 'l', 'l']
  | .variable name => isName name.toList ∧ s = ['$', 'E', 'N', 'V', '.'] ++ name.toList
  | .symbol name => isName name.toList ∧ s = '$' :: name.toList
  | .opening => s = ['(']
  | .closing => s = [')']
  | .plus => s = ['+']
  | .minus => s = ['-']
  | .star => s = ['*']
  | .slash => s = ['/']
  | .percent => s = ['%']
  | .equal => s ∈ [['=', '='], ['=', '=', '=']]
  | .unequal => s ∈ [['!', '='], ['!', '=', '='], ['<', '>']]
  | .less => s = ['<']
  | .atMost => s = ['<', '=']
  | .greater => s = ['>']
  | .atLeast => s = ['>', '=']
  | .and => s = ['&', '&']
  | .or => s = ['|', '|']
  | .not => s = ['!']

instance (s : List Char) : (lexeme : Lexeme) → Decidable (Spells s lexeme)
  | .int _ | .variable _ | .symbol _ => inferInstanceAs (Decidable (_ ∧ _))
  | .float _ => inferInstanceAs (Decidable False)
  | .text _ => List.decidableBEx _ _
  | .equal | .unequal => inferInstanceAs (Decidable (_ ∈ _))
  | .bool true | .bool false | .null | .opening | .closing | .plus | .minus | .star | .slash
  | .percent | .less | .atMost | .greater | .atLeast | .and | .or | .not =>
    inferInstanceAs (Decidable (_ = _))

structure Word where
  lexeme : Lexeme
  text : List Char
  gap : List Char
  spelled : Spells text lexeme
  blanks : Blanks gap

def write (words : List Word) : List Char := words.flatMap fun w => w.text ++ w.gap

def OneLexeme (s : List Char) (lexeme : Lexeme) : Prop :=
  ∃ c rest, s = c :: rest ∧ isBlank c = false ∧
    ∀ offset, readLexeme offset c rest = .ok (lexeme, rest.length)

lemma numberText_digits {s : List Char} (h : ∀ c ∈ s, c.isDigit = true) : numberText s = s := by
  simp only [numberText, List.takeWhile_eq_self_iff.mpr h, List.dropWhile_eq_nil_iff.mpr h,
    fractionText, exponentText, List.append_nil]

lemma oneLexeme_int {n : Int64} (h : 0 ≤ n.toInt) :
    OneLexeme (toString n.toInt).toList (.int n) := by
  have hdigits : ∀ c ∈ (toString n.toInt).toList, c.isDigit = true := by
    rw [toList_toString, decide_eq_false (Int.not_lt.mpr h)]
    exact fun c hc => isDigit_of_mem_decimal hc
  have hread := read_toString n.toInt
  obtain ⟨c, rest, hs⟩ := List.exists_cons_of_ne_nil (toString_ne_nil n.toInt)
  rw [hs] at hdigits hread ⊢
  have hc := hdigits c (by simp)
  refine ⟨c, rest, rfl, isDigit_not_blank hc, fun offset => ?_⟩
  simp [readLexeme, hc, readNumber, numberText_digits hdigits, hread, int64?_wholeLiteral]

lemma readQuoted_cons_of_ne {quote c : Char} (hq : c ≠ quote) (hm : c ≠ '\\') (s : List Char) :
    readQuoted quote (c :: s) = (readQuoted quote s).map fun (t, n) => (c :: t, n + 1) := by
  rw [readQuoted.eq_def]
  simp only [hq, hm, if_false]

lemma readQuoted_backslash {quote : Char} (hq : quote ≠ '\\') (c : Char) (s : List Char) :
    readQuoted quote ('\\' :: c :: s) =
      (readQuoted quote s).map fun (t, n) => (unescape c :: t, n + 2) := by
  rw [readQuoted.eq_def]
  simp only [hq.symm, if_false, if_true]

lemma readQuoted_escape {quote : Char} (hq : quote = '"' ∨ quote = '\'') (s : List Char) :
    readQuoted quote (s.flatMap (escape quote) ++ [quote]) =
      some (s, (s.flatMap (escape quote)).length + 1) := by
  have hquote : quote ≠ '\\' ∧ unescape quote = quote := by
    obtain rfl | rfl := hq <;> decide
  induction s with
  | nil => simp [readQuoted]
  | cons c s ih =>
    rw [List.flatMap_cons, List.append_assoc, List.length_append]
    -- only `n` and `t` mean something else behind a backslash, and neither is ever escaped
    by_cases hc : c = quote ∨ c = '\\'
    · have hplain : unescape c = c := by
        obtain rfl | rfl := hc
        · exact hquote.2
        · rfl
      rw [escape, if_pos hc, List.cons_append, List.singleton_append,
        readQuoted_backslash hquote.1, ih, Option.map_some, hplain]
      simp [Nat.add_comm, Nat.add_left_comm]
    · obtain ⟨hne, hm⟩ := not_or.mp hc
      rw [escape, if_neg hc, List.singleton_append, readQuoted_cons_of_ne hne hm, ih,
        Option.map_some]
      simp [Nat.add_comm]

lemma oneLexeme_text {quote : Char} (hq : quote = '"' ∨ quote = '\'') (t : String) :
    OneLexeme (quote :: (t.toList.flatMap (escape quote) ++ [quote])) (.text t) := by
  have hread := readQuoted_escape hq t.toList
  obtain rfl | rfl := hq
  · exact ⟨'"', _, rfl, rfl, fun _ => by simp [readLexeme, readString, hread]⟩
  · exact ⟨'\'', _, rfl, rfl, fun _ => by simp [readLexeme, readString, hread]⟩

lemma isAlpha_not_digit {c : Char} (h : c.isAlpha = true) : c.isDigit = false := by
  simp only [Char.isAlpha, Char.isUpper, Char.isLower, Char.isDigit, Bool.or_eq_true,
    Bool.and_eq_true, decide_eq_true_eq, Bool.and_eq_false_iff, decide_eq_false_iff_not, ge_iff_le,
    UInt32.le_iff_toNat_le, Char.reduceVal, UInt32.reduceToNat] at h ⊢
  omega

lemma takeWhile_isNameChar {s : List Char} (h : isName s = true) :
    s.takeWhile isNameChar = s ∧ s.isEmpty = false := by
  simp only [isName, Bool.and_eq_true, Bool.not_eq_true', List.all_eq_true] at h
  exact ⟨List.takeWhile_eq_self_iff.mpr h.2, h.1⟩

lemma oneLexeme_word {s word : List Char} (h : s.map Char.toLower = word) (hne : word ≠ [])
    (hword : word.all Char.isLower = true) {lexeme : Lexeme}
    (hread : ∀ c rest, (c :: rest).map Char.toLower = word → rest.takeWhile isNameChar = rest →
      readWord c rest = .ok (lexeme, rest.length)) : OneLexeme s lexeme := by
  obtain ⟨c, rest, rfl⟩ := List.exists_cons_of_ne_nil (l := s) (by rintro rfl; exact hne h.symm)
  have halpha : ∀ d ∈ c :: rest, d.isAlpha = true := by
    intro d hd
    rw [← Char.isLower_toLower_eq_isAlpha]
    exact List.all_eq_true.mp hword _ (h ▸ List.mem_map_of_mem hd)
  have hname : ∀ d ∈ c :: rest, isNameChar d = true := fun d hd => by
    simp [isNameChar, Char.isAlphanum, halpha d hd]
  have hc := halpha c (by simp)
  have hother : ∀ d : Char, d.isAlpha = false → c ≠ d := by
    rintro _ hd rfl
    exact absurd hc (by simp [hd])
  have htake := List.takeWhile_eq_self_iff.mpr fun d hd => hname d (List.mem_cons_of_mem c hd)
  refine ⟨c, rest, rfl, nameChar_not_blank (hname c (by simp)), fun offset => ?_⟩
  rw [← hread c rest h htake]
  simp [readLexeme, isAlpha_not_digit hc, hother '.' rfl, hother '"' rfl, hother '\'' rfl,
    hother '$' rfl, hc]

lemma oneLexeme_variable {name : List Char} (h : isName name = true) :
    OneLexeme (['$', 'E', 'N', 'V', '.'] ++ name) (.variable (String.ofList name)) := by
  obtain ⟨htake, hne⟩ := takeWhile_isNameChar h
  refine ⟨'$', 'E' :: 'N' :: 'V' :: '.' :: name, rfl, rfl, fun offset => ?_⟩
  simp [readLexeme, readReference, dropStart?, readVariable, htake, hne]

lemma oneLexeme_symbol {name : List Char} (h : isName name = true) :
    OneLexeme ('$' :: name) (.symbol (String.ofList name)) := by
  obtain ⟨htake, hne⟩ := takeWhile_isNameChar h
  refine ⟨'$', name, rfl, rfl, fun offset => ?_⟩
  -- `ENV` alone is a name, since no name has a point
  have hno : dropStart? ['E', 'N', 'V', '.'] name = none := by
    cases hd : dropStart? ['E', 'N', 'V', '.'] name with
    | none => rfl
    | some rest =>
      obtain rfl := dropStart?_eq_some.mp hd
      simp [isName, isNameChar] at h
  simp [readLexeme, readReference, hno, readSymbol, htake, hne]

lemma oneLexeme_of_spells {s : List Char} {lexeme : Lexeme} (h : Spells s lexeme) :
    OneLexeme s lexeme := by
  match lexeme, h with
  | .int n, ⟨hn, hs⟩ => exact hs ▸ oneLexeme_int hn
  | .text t, ⟨quote, hq, hs⟩ => exact hs ▸ oneLexeme_text (by simpa using hq) t
  | .bool true, h | .bool false, h | .null, h =>
    exact oneLexeme_word h (by decide) rfl fun c rest hword htake => by
      rw [readWord, htake, hword]
      rfl
  | .variable name, ⟨hname, hs⟩ => simpa [hs] using oneLexeme_variable hname
  | .symbol name, ⟨hname, hs⟩ => simpa [hs] using oneLexeme_symbol hname
  | .equal, h =>
    obtain rfl | rfl : s = ['=', '='] ∨ s = ['=', '=', '='] := by simpa [Spells] using h
    all_goals exact ⟨_, _, rfl, rfl, fun _ => rfl⟩
  | .unequal, h =>
    obtain rfl | rfl | rfl : s = ['!', '='] ∨ s = ['!', '=', '='] ∨ s = ['<', '>'] := by
      simpa [Spells] using h
    all_goals exact ⟨_, _, rfl, rfl, fun _ => rfl⟩
  | .opening, h | .closing, h | .plus, h | .minus, h | .star, h | .slash, h | .percent, h
  | .less, h | .atMost, h | .greater, h | .atLeast, h | .and, h | .or, h | .not, h =>
    obtain rfl := h
    exact ⟨_, _, rfl, rfl, fun _ => rfl⟩

lemma scanFrom_word (w : Word) {rest : List Char} (h : w.gap = [] → rest = []) (total : Nat) :
    scanFrom total (w.text ++ w.gap ++ rest) =
      (scanFrom total rest).map (w.lexeme :: ·) := by
  obtain ⟨c, tail, htext, hc, hread⟩ := oneLexeme_of_spells w.spelled
  have hends : Ends (w.gap ++ rest) := by
    cases hgap : w.gap with
    | nil => simp [h hgap, Ends]
    | cons d gap =>
      rintro _ ⟨⟩
      exact w.blanks d (by simp [hgap])
  have hlexeme : ∀ offset, readLexeme offset c (tail ++ (w.gap ++ rest)) =
      .ok (w.lexeme, tail.length) := fun offset => readLexeme_append hends (hread 0) offset
  rw [htext, List.append_assoc, List.cons_append, scanFrom_cons hc hlexeme, List.drop_left,
    scanFrom_blanks w.blanks]

lemma scanFrom_write {words : List Word} (h : ∀ w ∈ words.dropLast, w.gap ≠ []) (total : Nat) :
    scanFrom total (write words) = .ok (words.map Word.lexeme) := by
  induction words with
  | nil => simp [write, scanFrom]
  | cons w words ih =>
    have hgap : w.gap = [] → write words = [] := by
      intro hnone
      cases words with
      | nil => rfl
      | cons next words => exact absurd hnone (h w (by simp))
    have hrest : ∀ v ∈ words.dropLast, v.gap ≠ [] := by
      cases words with
      | nil => simp
      | cons next words => exact fun v hv => h v (by simp [hv])
    rw [write, List.flatMap_cons]
    change scanFrom total (w.text ++ w.gap ++ write words) = _
    rw [scanFrom_word w hgap, ih hrest]
    rfl

/-- Scanning undoes writing, whatever spellings and blanks are chosen. -/
theorem scan_write {words : List Word} (h : ∀ w ∈ words.dropLast, w.gap ≠ []) :
    scan (write words) = .ok (words.map Word.lexeme) :=
  scanFrom_write h _

def confusableWords : List Word :=
  [⟨.symbol "ENV", "$ENV".toList, ['\n', '\t'], by decide, by decide⟩,
    ⟨.unequal, ['<', '>'], [' '], by decide, by decide⟩,
    ⟨.text "\"n\\", "\"\\\"n\\\\\"".toList, [' '], by decide, by decide⟩,
    ⟨.not, ['!'], [' '], by decide, by decide⟩,
    ⟨.equal, ['=', '=', '='], [' '], by decide, by decide⟩,
    ⟨.variable "_1", "$ENV._1".toList, [Char.ofNat 0x3000], by decide, by decide⟩,
    ⟨.int 9223372036854775807, "9223372036854775807".toList, [' '], by decide, by decide⟩,
    ⟨.bool true, "TRUE".toList, [], by decide, by decide⟩]

theorem scan_write_confusable :
    (∀ w ∈ confusableWords.dropLast, w.gap ≠ []) ∧
      scan (write confusableWords) = .ok (confusableWords.map Word.lexeme) :=
  ⟨by decide, scan_write (by decide)⟩

end LayeredConfig.Formula
