import LayeredConfig.Formula.Evaluation
import LayeredConfig.Proofs.Text.Trimming

namespace LayeredConfig.Formula

open Text

section

variable {b : List Char} (hb : Ends b)
include hb

lemma ends_not_nameChar : ∀ c ∈ b.head?, isNameChar c = false := by
  intro c hc
  by_contra hn
  have hv := nameChar_not_blank (c := c) (by simpa using hn)
  simp [hb c hc] at hv

lemma ends_not_digit : ∀ c ∈ b.head?, c.isDigit = false := by
  intro c hc
  have hn := ends_not_nameChar hb c hc
  simp_all [isNameChar, Char.isAlphanum]

omit hb in
lemma exponentTail_cons (c : Char) (s : List Char) :
    exponentTail (c :: s) =
      if c = '+' ∨ c = '-' then c :: s.takeWhile Char.isDigit
      else (c :: s).takeWhile Char.isDigit := by
  by_cases hp : c = '+'
  · simp [exponentTail, hp]
  by_cases hm : c = '-'
  · simp [exponentTail, hm]
  · simp [exponentTail, hp, hm]

lemma exponentTail_append (s : List Char) : exponentTail (s ++ b) = exponentTail s := by
  have hd := takeWhile_append_of_not (ends_not_digit hb)
  cases s with
  | nil =>
    cases b with
    | nil => rfl
    | cons c b =>
      have hc := hb c (by simp)
      have hn := ends_not_digit hb c (by simp)
      have hp : c ≠ '+' := by rintro rfl; simp [isBlank] at hc
      have hm : c ≠ '-' := by rintro rfl; simp [isBlank] at hc
      simp [exponentTail, hp, hm, hn]
  | cons c s =>
    have hds := hd (c :: s)
    simp only [List.cons_append] at hds ⊢
    rw [exponentTail_cons, exponentTail_cons, hd, hds]

lemma dropStart?_append {start : List Char} (hs : ∀ c ∈ start, isBlank c = false)
    (s : List Char) : dropStart? start (s ++ b) = (dropStart? start s).map (· ++ b) := by
  induction start generalizing s with
  | nil => simp [dropStart?]
  | cons c start ih =>
    cases s with
    | nil =>
      cases b with
      | nil => rfl
      | cons d b =>
        have hd : c ≠ d := by
          rintro rfl
          exact absurd (hb c (by simp)) (by simp [hs c])
        simp [dropStart?, hd]
    | cons d s =>
      by_cases h : c = d
      · simpa [dropStart?, h] using ih (fun e he => hs e (by simp [he])) s
      · simp [dropStart?, h]

lemma exponentText_append (s : List Char) : exponentText (s ++ b) = exponentText s := by
  cases s with
  | nil =>
    cases b with
    | nil => rfl
    | cons c b =>
      have hc := hb c (by simp)
      have he : ¬(c = 'e' ∨ c = 'E') := by rintro (rfl | rfl) <;> simp [isBlank] at hc
      simp [exponentText, he]
  | cons c s => simp [exponentText, exponentTail_append hb]

lemma fractionText_append (s : List Char) :
    fractionText (s ++ b) = ((fractionText s).1, (fractionText s).2 ++ b) := by
  have ht := takeWhile_append_of_not (ends_not_digit hb)
  have hd := dropWhile_append_of_not (ends_not_digit hb)
  cases s with
  | nil =>
    cases b with
    | nil => rfl
    | cons c b =>
      have hc := hb c (by simp)
      have hp : c ≠ '.' := by rintro rfl; simp [isBlank] at hc
      simp [fractionText, hp]
  | cons c s =>
    by_cases hp : c = '.'
    · simp [fractionText, hp, ht, hd]
    · simp [fractionText, hp]

lemma numberText_append (s : List Char) : numberText (s ++ b) = numberText s := by
  simp only [numberText, takeWhile_append_of_not (ends_not_digit hb),
    dropWhile_append_of_not (ends_not_digit hb), fractionText_append hb,
    exponentText_append hb]

omit hb in
lemma operator?_take (c d e : Char) (t : List Char) :
    operator? c (d :: e :: t) = operator? c [d, e] := by
  by_cases he : e = '='
  · subst he
    unfold operator?
    split <;> simp_all
    all_goals grind
  · unfold operator?
    split <;> simp_all

omit hb in
lemma operator?_blank {c e : Char} (he : isBlank e = true) (t : List Char) :
    operator? c (e :: t) = operator? c [] := by
  unfold operator?
  split <;> simp_all [isBlank]

omit hb in
lemma operator?_sign_blank {c d e : Char} (he : isBlank e = true) (t : List Char) :
    operator? c (d :: e :: t) = operator? c [d] := by
  unfold operator?
  split <;> simp_all [isBlank]

lemma operator?_append (c : Char) (s : List Char) : operator? c (s ++ b) = operator? c s := by
  cases b with
  | nil => simp
  | cons e b =>
    have he := hb e (by simp)
    match s with
    | [] => exact operator?_blank he b
    | [d] => exact operator?_sign_blank he b
    | d :: d' :: s => exact (operator?_take c d d' _).trans (operator?_take c d d' s).symm

end

lemma readQuoted_append {quote : Char} {s : List Char} {r : List Char × Nat}
    (h : readQuoted quote s = some r) (t : List Char) : readQuoted quote (s ++ t) = some r := by
  fun_induction readQuoted quote s generalizing r with
  | case1 => simp at h
  | case2 rest =>
    rw [List.cons_append, readQuoted.eq_def]
    simpa using h
  | case3 => simp at h
  | case4 escaped rest hq ih =>
    obtain ⟨u, hu, rfl⟩ := Option.map_eq_some_iff.mp h
    rw [List.cons_append, List.cons_append, readQuoted.eq_def]
    simp [hq, ih hu]
  | case5 c rest hq he ih =>
    obtain ⟨u, hu, rfl⟩ := Option.map_eq_some_iff.mp h
    rw [List.cons_append, readQuoted.eq_def]
    simp [hq, he, ih hu]

lemma readLexeme_append {b : List Char} (hb : Ends b) {offset : Nat} {c : Char}
    {rest : List Char} {r : Lexeme × Nat} (h : readLexeme offset c rest = .ok r) (offset' : Nat) :
    readLexeme offset' c (rest ++ b) = .ok r := by
  have hn := takeWhile_append_of_not (ends_not_nameChar hb)
  simp only [readLexeme] at h ⊢
  split_ifs at h ⊢
  · simpa only [readNumber, ← List.cons_append, numberText_append hb] using h
  · simp only [readString] at h ⊢
    cases hq : readQuoted c rest with
    | none => simp [hq] at h
    | some u => simpa only [readQuoted_append hq, hq] using h
  · have hstart : ∀ c ∈ ['E', 'N', 'V', '.'], isBlank c = false := by
      simp [isBlank]
    have hs := dropStart?_append hb hstart rest
    simp only [readReference] at h ⊢
    rw [hs]
    cases hd : dropStart? ['E', 'N', 'V', '.'] rest with
    | none => simpa only [hd, Option.map_none, readSymbol, hn] using h
    | some name => simpa only [hd, Option.map_some, readVariable, hn] using h
  · simpa only [readWord, hn] using h
  · simp only [readOperator] at h ⊢
    rw [operator?_append hb]
    cases ho : operator? c rest with
    | none => simp [ho] at h
    | some u => simpa only [ho] using h

lemma scanFrom_blanks {b : List Char} (hb : Blanks b) (total : Nat) (s : List Char) :
    scanFrom total (b ++ s) = scanFrom total s := by
  induction b with
  | nil => rfl
  | cons c b ih =>
    rw [List.cons_append, scanFrom, if_pos (hb c (by simp))]
    exact ih fun d hd => hb d (by simp [hd])

lemma scanFrom_append {b : List Char} (hb : Blanks b) {total : Nat} {s : List Char}
    {ls : List Lexeme} (h : scanFrom total s = .ok ls) (total' : Nat) :
    scanFrom total' (s ++ b) = .ok ls := by
  fun_induction scanFrom total s generalizing ls b with
  | case1 =>
    have he := scanFrom_blanks hb total' []
    simp_all [scanFrom]
  | case2 c rest hc ih =>
    rw [List.cons_append, scanFrom, if_pos hc]
    exact ih hb h
  | case3 c rest hc fault hr => simp at h
  | case4 c rest hc lexeme n hr ih =>
    cases hs : scanFrom total (rest.drop n) with
    | error fault => simp [hs, Except.map] at h
    | ok more =>
      have hd : Blanks (b.drop (n - rest.length)) := fun d hd => hb d (List.mem_of_mem_drop hd)
      rw [List.cons_append, scanFrom, readLexeme_append hb.ends hr, if_neg hc]
      simpa only [List.drop_append, ih hd hs, hs] using h

lemma scanFrom_cons {total : Nat} {c : Char} (hc : isBlank c = false) {rest : List Char}
    {lexeme : Lexeme} {n : Nat} (h : ∀ offset, readLexeme offset c rest = .ok (lexeme, n)) :
    scanFrom total (c :: rest) = (scanFrom total (rest.drop n)).map (lexeme :: ·) := by
  simp [scanFrom, hc, h]

lemma scanFrom_variable (total : Nat) {name rest : List Char} (hn : name ≠ [])
    (hname : ∀ c ∈ name, isNameChar c = true) (hr : rest.takeWhile isNameChar = []) :
    scanFrom total ('$' :: 'E' :: 'N' :: 'V' :: '.' :: (name ++ rest)) =
      (scanFrom total rest).map (.variable (String.ofList name) :: ·) := by
  have ht : (name ++ rest).takeWhile isNameChar = name := by
    rw [List.takeWhile_append_of_pos hname, hr, List.append_nil]
  have hl : ∀ offset, readLexeme offset '$' ('E' :: 'N' :: 'V' :: '.' :: (name ++ rest)) =
      .ok (.variable (String.ofList name), name.length + 4) := by
    intro offset
    simp [readLexeme, readReference, dropStart?, readVariable, ht, hn]
  have hd : ('E' :: 'N' :: 'V' :: '.' :: (name ++ rest)).drop (name.length + 4) = rest :=
    List.drop_left
  rw [scanFrom_cons (by decide) hl, hd]

lemma scanFrom_or (total : Nat) (rest : List Char) :
    scanFrom total ('|' :: '|' :: rest) = (scanFrom total rest).map (.or :: ·) := by
  have hl : ∀ offset, readLexeme offset '|' ('|' :: rest) = .ok (.or, 1) := by
    intro offset
    simp [readLexeme, readOperator, operator?]
  rw [scanFrom_cons (by decide) hl]
  rfl

lemma splitFallback_shape {s name fallback : List Char}
    (h : splitFallback s = some (name, fallback)) :
    name ≠ [] ∧ (∀ c ∈ name, isNameChar c = true) ∧ ∃ b₁ b₂ b₃, Blanks b₁ ∧ Blanks b₂ ∧ Blanks b₃ ∧
      s = '$' :: 'E' :: 'N' :: 'V' :: '.' ::
        (name ++ (b₁ ++ '|' :: '|' :: (b₂ ++ (fallback ++ b₃)))) := by
  simp only [splitFallback, Option.bind_eq_bind, Option.bind_eq_some_iff] at h
  obtain ⟨rest, hrest, tail, htail, h⟩ := h
  rw [dropStart?_eq_some] at hrest htail
  split_ifs at h with hempty
  simp only [Option.some.injEq, Prod.mk.injEq] at h
  obtain ⟨rfl, rfl⟩ := h
  obtain ⟨b₁, hb₁, hbehind⟩ := trimStart_split (rest.dropWhile isNameChar)
  obtain ⟨b₂, b₃, hb₂, hb₃, hfallback⟩ := trim_split tail
  have hname : rest.takeWhile isNameChar ≠ [] := fun he => hempty (by rw [he]; rfl)
  refine ⟨hname, fun _ => List.mem_takeWhile_imp, b₁, b₂, b₃, hb₁, hb₂, hb₃, ?_⟩
  have hsplit : rest = rest.takeWhile isNameChar ++ (b₁ ++ '|' :: '|' :: tail) := by
    conv => lhs; rw [← List.takeWhile_append_dropWhile (p := isNameChar) (l := rest), hbehind, htail]
    rfl
  rw [hrest, ← List.append_assoc b₂, ← hfallback, ← hsplit]
  rfl

lemma scan_fallback {s name fallback : List Char}
    (h : splitFallback (trim s) = some (name, fallback)) {ls : List Lexeme}
    (hf : scan fallback = .ok ls) :
    scan s = .ok (.variable (String.ofList name) :: .or :: ls) := by
  obtain ⟨b, c, hb, hc, hs⟩ := trim_split s
  obtain ⟨hn, hname, b₁, b₂, b₃, hb₁, hb₂, hb₃, hshape⟩ := splitFallback_shape h
  have hend : Blanks (b₃ ++ c) := fun d hd => (List.mem_append.mp hd).elim (hb₃ d) (hc d)
  have hrest : (b₁ ++ '|' :: '|' :: (b₂ ++ (fallback ++ (b₃ ++ c)))).takeWhile isNameChar = [] := by
    cases b₁ with
    | nil => rfl
    | cons d b₁ => simp [ends_not_nameChar hb₁.ends d rfl]
  have hwhole : s = b ++ '$' :: 'E' :: 'N' :: 'V' :: '.' ::
      (name ++ (b₁ ++ '|' :: '|' :: (b₂ ++ (fallback ++ (b₃ ++ c))))) := by
    rw [hs, hshape]
    simp only [List.append_assoc, List.cons_append]
  rw [hwhole, scan, scanFrom_blanks hb, scanFrom_variable _ hn hname hrest, scanFrom_blanks hb₁,
    scanFrom_or, scanFrom_blanks hb₂, scanFrom_append hend hf]
  rfl

end LayeredConfig.Formula
