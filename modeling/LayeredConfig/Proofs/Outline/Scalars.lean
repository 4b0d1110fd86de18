import LayeredConfig.Outline.Scalar
import LayeredConfig.Proofs.Number.Decimal
import LayeredConfig.Proofs.Text.Splitting
import LayeredConfig.Proofs.Text.Trimming

/-! The shapes of bare values. -/

namespace LayeredConfig.Outline

open Number Text

structure Invocation (s name inner : List Char) : Prop where
  named : name ≠ []
  plain : ∀ c ∈ name, c.isAlphanum = true ∨ c = '_'
  split : s = '!' :: (name ++ '(' :: (inner ++ [')']))

def arguments (inner : List Char) : List String :=
  (((inner.splitOn ',').map trim).filter (· ≠ [])).map String.ofList

def Quotes (s inner : List Char) : Prop := ∃ quote ∈ ['"', '\''], s = quote :: (inner ++ [quote])

structure IsText (s : List Char) : Prop where
  nonempty : s ≠ []
  unflagged : ∀ flag : Bool, s ≠ (toString flag).toList
  innumeric : isNumeric s = false
  uninvoked : ∀ name inner, ¬ Invocation s name inner

lemma isText_cons {c : Char} (h : c ∉ ['!', '+', '-', '.', 't', 'f']) (hdigit : c.isDigit = false)
    (rest : List Char) : IsText (c :: rest) := by
  simp only [List.mem_cons, List.not_mem_nil, or_false, not_or] at h
  obtain ⟨htag, hplus, hminus, hpoint, ht, hf⟩ := h
  refine ⟨List.cons_ne_nil c rest, ?_, ?_, ?_⟩
  · rintro (_ | _) heq
    · exact hf (List.cons.inj heq).1
    · exact ht (List.cons.inj heq).1
  · have hsign : scanSign (c :: rest) = (false, c :: rest) := by
      simp [scanSign, hplus, hminus]
    have hdigits : scanDigits (c :: rest) = ([], c :: rest) := by
      simp [scanDigits, List.span_eq_takeWhile_dropWhile, hdigit]
    have hfraction : scanFraction (c :: rest) = (none, c :: rest) := by
      simp [scanFraction, hpoint]
    simp [isNumeric, hsign, hdigits, hfraction]
  · rintro name inner ⟨-, -, heq⟩
    exact htag (List.cons.inj heq).1

lemma isName_iff {name : List Char} :
    isName name = true ↔ name ≠ [] ∧ ∀ c ∈ name, c.isAlphanum = true ∨ c = '_' := by
  simp [isName, isNameChar]

lemma arguments_eq_tagArgs (inner : List Char) :
    arguments inner = (tagArgs inner).map String.ofList := by
  have hkeep : (fun part : List Char => decide (part ≠ [])) = fun part => !part.isEmpty := by
    funext part
    cases part <;> rfl
  rw [arguments, tagArgs, pieces_eq_splitOn, hkeep]

lemma Invocation.opening_free {s name inner : List Char} (h : Invocation s name inner) :
    ∀ c ∈ name, (c == '(') = false := by
  intro c hc
  rw [beq_eq_false_iff_ne]
  rintro rfl
  exact absurd (h.plain _ hc) (by decide)

lemma readTag_eq_some {s : List Char} {n : Node} : readTag s = some n ↔
    ∃ name inner, Invocation s name inner ∧ n = .tag (String.ofList name) (arguments inner) := by
  simp only [readTag, Option.bind_eq_bind, Option.bind_eq_some_iff, dropStart?_eq_some,
    dropEnd?_eq_some, arguments_eq_tagArgs]
  constructor
  · rintro ⟨tail, rfl, body, rfl, ⟨name, mark, inner⟩, hcut, h⟩
    obtain ⟨rfl, hmark, -⟩ := cut_eq_some.mp hcut
    obtain rfl : mark = '(' := eq_of_beq hmark
    dsimp only at h
    split_ifs at h with hname
    obtain ⟨hne, hplain⟩ := isName_iff.mp hname
    exact ⟨name, inner, ⟨hne, hplain, by simp⟩, (Option.some.inj h).symm⟩
  · rintro ⟨name, inner, hinvocation, rfl⟩
    have hcut : cut (· == '(') (name ++ '(' :: inner) = some (name, '(', inner) :=
      cut_eq_some.mpr ⟨rfl, rfl, hinvocation.opening_free⟩
    refine ⟨_, hinvocation.split, name ++ '(' :: inner, by simp, _, hcut, ?_⟩
    exact if_pos (isName_iff.mpr ⟨hinvocation.named, hinvocation.plain⟩)

lemma unquote_quotes {s inner : List Char} (h : Quotes s inner) : unquote s = some inner := by
  obtain ⟨quote, hquote, rfl⟩ := h
  have hlast : (quote :: (inner ++ [quote])).getLast? = some quote := by
    rw [← List.cons_append, List.getLast?_concat]
  rw [unquote, if_pos ⟨by simpa using hquote, hlast⟩, List.dropLast_concat]

lemma isText_of_quotes {s inner : List Char} (h : Quotes s inner) : IsText s := by
  obtain ⟨quote, hquote, rfl⟩ := h
  simp only [List.mem_cons, List.not_mem_nil, or_false] at hquote
  obtain rfl | rfl := hquote
  · exact isText_cons (by decide) rfl _
  · exact isText_cons (by decide) rfl _

lemma unquote_eq_some {s inner : List Char} :
    unquote s = some inner ↔ Quotes s inner ∨ s ∈ [['"'], ['\'']] ∧ inner = [] := by
  constructor
  · intro h
    unfold unquote at h
    split at h
    · cases h
    · rename_i quote rest
      split_ifs at h with hends
      obtain ⟨hquote, hlast⟩ := hends
      obtain rfl := Option.some.inj h
      obtain rfl | ⟨front, c, rfl⟩ := List.eq_nil_or_concat' rest
      · exact .inr ⟨by simpa using hquote, rfl⟩
      · rw [← List.cons_append, List.getLast?_concat] at hlast
        obtain rfl := Option.some.inj hlast
        exact .inl ⟨c, by simpa using hquote, by rw [List.dropLast_concat]⟩
  · rintro (h | ⟨hlone, rfl⟩)
    · exact unquote_quotes h
    · simp only [List.mem_cons, List.not_mem_nil, or_false] at hlone
      obtain rfl | rfl := hlone <;> rfl

section

variable {raw : List Char}

lemma readScalar_of_blank (h : trim raw = []) : readScalar raw = .null := by
  rw [readScalar, h]
  rfl

lemma readScalar_of_flag {flag : Bool} (h : trim raw = (toString flag).toList) :
    readScalar raw = .bool flag := by
  rw [readScalar, h]
  cases flag <;> rfl

lemma readScalar_of_nonempty (hne : trim raw ≠ [])
    (hflag : ∀ flag : Bool, trim raw ≠ (toString flag).toList) :
    readScalar raw = readText (trim raw) := by
  have hempty : (trim raw).isEmpty = false := List.isEmpty_eq_false_iff.mpr hne
  have htrue : trim raw ≠ ['t', 'r', 'u', 'e'] := hflag true
  have hfalse : trim raw ≠ ['f', 'a', 'l', 's', 'e'] := hflag false
  simp only [readScalar, hempty, htrue, hfalse, Bool.false_eq_true, if_false]

lemma readScalar_of_literal {l : Literal} (h : Literal.read (trim raw) = some l) :
    readScalar raw = numberNode l := by
  rw [readScalar_of_nonempty, readText, numeral?_eq_read, h]
  · intro hnil
    rw [hnil] at h
    cases h
  · intro flag hflag
    rw [hflag] at h
    cases flag <;> cases h

lemma readScalar_of_invocation {name inner : List Char} (h : Invocation (trim raw) name inner) :
    readScalar raw = .tag (String.ofList name) (arguments inner) := by
  have hread : Literal.read (trim raw) = none := by
    rw [h.split]
    rfl
  rw [readScalar_of_nonempty, readText, numeral?_eq_read, hread]
  · simp only [readTag_eq_some.mpr ⟨name, inner, h, rfl⟩]
  · simp [h.split]
  · intro flag
    rw [h.split]
    cases flag <;> exact fun heq => absurd (List.cons.inj heq).1 (by decide)

lemma readScalar_of_text (h : IsText (trim raw)) :
    readScalar raw = .string (String.ofList ((unquote (trim raw)).getD (trim raw))) := by
  have hread : Literal.read (trim raw) = none := by
    rw [← Option.not_isSome_iff_eq_none, ← isNumeric_iff_read, h.innumeric]
    exact Bool.false_ne_true
  have htag : readTag (trim raw) = none := by
    rw [Option.eq_none_iff_forall_ne_some]
    intro n hn
    obtain ⟨name, inner, hinvocation, -⟩ := readTag_eq_some.mp hn
    exact h.uninvoked name inner hinvocation
  rw [readScalar_of_nonempty h.nonempty h.unflagged, readText, numeral?_eq_read, hread, htag]

lemma readScalar_of_quotes {inner : List Char} (h : Quotes (trim raw) inner) :
    readScalar raw = .string (String.ofList inner) := by
  rw [readScalar_of_text (isText_of_quotes h), unquote_quotes h, Option.getD_some]

end

lemma kind_numberNode (l : Literal) : (numberNode l).kind = .int ∨ (numberNode l).kind = .float := by
  rw [numberNode]
  repeat' split
  all_goals simp [Node.kind]

inductive Shape : List Char → Node → Prop where
  | blank : Shape [] .null
  | flag (value : Bool) : Shape (toString value).toList (.bool value)
  | number {s : List Char} {n : Node} (h : isNumeric s = true)
    (hn : n.kind = .int ∨ n.kind = .float) : Shape s n
  | tag {s name inner : List Char} (h : Invocation s name inner) :
    Shape s (.tag (String.ofList name) (arguments inner))
  | text {s : List Char} (h : IsText s) : Shape s (.string (String.ofList ((unquote s).getD s)))

lemma shape_readScalar (raw : List Char) : Shape (trim raw) (readScalar raw) := by
  by_cases hblank : trim raw = []
  · rw [readScalar_of_blank hblank, hblank]
    exact .blank
  by_cases hflag : ∃ flag : Bool, trim raw = (toString flag).toList
  · obtain ⟨flag, hflag⟩ := hflag
    rw [readScalar_of_flag hflag, hflag]
    exact .flag flag
  by_cases hnumeric : isNumeric (trim raw) = true
  · obtain ⟨l, hread⟩ := exists_read_of_isNumeric hnumeric
    rw [readScalar_of_literal hread]
    exact .number hnumeric (kind_numberNode l)
  by_cases htag : ∃ name inner, Invocation (trim raw) name inner
  · obtain ⟨name, inner, htag⟩ := htag
    rw [readScalar_of_invocation htag]
    exact .tag htag
  · have htext : IsText (trim raw) := ⟨hblank, fun flag h => hflag ⟨flag, h⟩,
      eq_false_of_ne_true hnumeric, fun name inner h => htag ⟨name, inner, h⟩⟩
    rw [readScalar_of_text htext]
    exact .text htext

section

variable {s : List Char}

lemma Shape.eq_nil (h : Shape s .null) : s = [] := by
  cases h with
  | blank => rfl
  | number _ hn => simp [Node.kind] at hn

lemma Shape.eq_flag {flag : Bool} (h : Shape s (.bool flag)) : s = (toString flag).toList := by
  cases h with
  | flag => rfl
  | number _ hn => simp [Node.kind] at hn

lemma Shape.isNumeric {n : Node} (h : Shape s n) (hn : n.kind = .int ∨ n.kind = .float) :
    isNumeric s = true := by
  cases h with
  | number h => exact h
  | _ => simp [Node.kind] at hn

lemma Shape.invocation {name : String} {args : List String} (h : Shape s (.tag name args)) :
    ∃ inner, Invocation s name.toList inner ∧ args = arguments inner := by
  cases h with
  | number _ hn => simp [Node.kind] at hn
  | tag h => exact ⟨_, by rwa [String.toList_ofList], rfl⟩

end

lemma kind_readScalar_iff {raw : List Char} :
    (readScalar raw).kind = .int ∨ (readScalar raw).kind = .float ↔ isNumeric (trim raw) = true := by
  refine ⟨(shape_readScalar raw).isNumeric, fun h => ?_⟩
  obtain ⟨l, hread⟩ := exists_read_of_isNumeric h
  rw [readScalar_of_literal hread]
  exact kind_numberNode l

theorem readScalar_shapes (raw : List Char) :
    (readScalar raw = .null ↔ trim raw = []) ∧
    (∀ flag, readScalar raw = .bool flag ↔ trim raw = (toString flag).toList) ∧
    ((readScalar raw).kind = .int ∨ (readScalar raw).kind = .float ↔ isNumeric (trim raw) = true) ∧
    (∀ name args, readScalar raw = .tag name args ↔
      ∃ inner, Invocation (trim raw) name.toList inner ∧ args = arguments inner) ∧
    (IsText (trim raw) →
      (∀ inner, Quotes (trim raw) inner → readScalar raw = .string (String.ofList inner)) ∧
      (trim raw ∈ [['"'], ['\'']] → readScalar raw = .string "") ∧
      ((∀ inner, ¬ Quotes (trim raw) inner) → trim raw ∉ [['"'], ['\'']] →
        readScalar raw = .string (String.ofList (trim raw)))) := by
  have hshape := shape_readScalar raw
  refine ⟨⟨fun h => ?_, readScalar_of_blank⟩, fun flag => ⟨fun h => ?_, readScalar_of_flag⟩,
    kind_readScalar_iff, fun name args => ⟨fun h => ?_, ?_⟩,
    fun htext => ⟨fun inner => readScalar_of_quotes, fun h => ?_, fun hquotes hlone => ?_⟩⟩
  · exact (h ▸ hshape).eq_nil
  · exact (h ▸ hshape).eq_flag
  · exact (h ▸ hshape).invocation
  · rintro ⟨inner, hinvocation, rfl⟩
    rw [readScalar_of_invocation hinvocation, String.ofList_toList]
  · rw [readScalar_of_text htext, unquote_eq_some.mpr (.inr ⟨h, rfl⟩), Option.getD_some]
  · have hnone : unquote (trim raw) = none := by
      rw [Option.eq_none_iff_forall_ne_some]
      intro inner hinner
      exact (unquote_eq_some.mp hinner).elim (hquotes inner) fun h => hlone h.1
    rw [readScalar_of_text htext, hnone, Option.getD_none]

theorem readScalar_shapes_quoted : IsText (trim " ' \"!()' ".toList) ∧
    Quotes (trim " ' \"!()' ".toList) " \"!()".toList ∧
    readScalar " ' \"!()' ".toList = .string " \"!()" := by
  have hquotes : Quotes (trim " ' \"!()' ".toList) " \"!()".toList := ⟨'\'', by decide, by decide⟩
  have htext := isText_of_quotes hquotes
  exact ⟨htext, hquotes, ((readScalar_shapes _).2.2.2.2 htext).1 _ hquotes⟩

theorem readScalar_loses_quote : IsText (trim ['"']) ∧ (∀ inner, ¬ Quotes (trim ['"']) inner) ∧
    readScalar ['"'] = .string "" ∧ String.ofList (trim ['"']) ≠ "" := by
  refine ⟨isText_cons (by decide) rfl [], ?_, rfl, by decide⟩
  rintro inner ⟨quote, -, h⟩
  simpa using (List.cons.inj h).2

end LayeredConfig.Outline
