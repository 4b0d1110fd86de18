import LayeredConfig.Proofs.Outline.BareLine
import LayeredConfig.Proofs.Outline.Scalars

/-! List items with a condition. -/

namespace LayeredConfig.Outline

open Number Text

def guardText (condition value : List Char) : List Char :=
  'i' :: 'f' :: ' ' :: (condition ++ ':' :: ' ' :: value)

lemma getLast?_guardText (condition : List Char) {value : List Char} (hne : value ≠ []) :
    (guardText condition value).getLast? = value.getLast? := by
  have hsplit : guardText condition value =
      'i' :: 'f' :: ' ' :: (condition ++ [':', ' ']) ++ value := by simp [guardText]
  rw [hsplit, List.getLast?_append_of_ne_nil _ hne]

lemma trimmed_guardText (condition : List Char) {value : List Char} (hvalue : trim value = value)
    (hne : value ≠ []) : Trimmed (guardText condition value) := by
  refine ⟨?_, ?_⟩
  · rintro c ⟨⟩
    rfl
  · rw [getLast?_guardText condition hne]
    exact (trimmed_of_trim hvalue).last

section

variable {first : Char} {rest value : List Char}
  (hcondition : trim (first :: rest) = first :: rest) (hcolon : ':' ∉ first :: rest)
  (hvalue : trim value = value)
include hcondition hcolon hvalue

lemma splitConditional_guardText : splitConditional (guardText (first :: rest) value) =
    if first.utf8Size = 1 then some (first :: rest, value) else none := by
  have hfirst : isBlank first = false := (trimmed_of_trim hcondition).first first rfl
  have hstart : dropStart? ['i', 'f'] (guardText (first :: rest) value) =
      some (' ' :: first :: (rest ++ ':' :: ' ' :: value)) := dropStart?_eq_some.mpr rfl
  have hblank : startsBlank (' ' :: first :: (rest ++ ':' :: ' ' :: value)) = true := rfl
  have htrim : trimStart (' ' :: first :: (rest ++ ':' :: ' ' :: value)) =
      first :: (rest ++ ':' :: ' ' :: value) :=
    (List.dropWhile_cons_of_pos rfl).trans (List.dropWhile_cons_of_neg (by simp [hfirst]))
  have hcut : cut (· == ':') (rest ++ ':' :: ' ' :: value) = some (rest, ':', ' ' :: value) := by
    refine cut_eq_some.mpr ⟨rfl, rfl, fun c hc => beq_eq_false_iff_ne.mpr ?_⟩
    rintro rfl
    exact hcolon (List.mem_cons_of_mem first hc)
  simp only [splitConditional, hstart, Option.bind_eq_bind, Option.bind_some, hblank, if_true, htrim,
    hcut, hcondition, trim_blank_cons (trimmed_of_trim hvalue)]

/-- An item with a condition and a value is never lost to another row. It keeps its condition if
the first character of that has one byte, and is a text with the condition in it otherwise. -/
theorem read?_guarded (hne : value ≠ []) (hlast : value.getLast? ≠ some ':') :
    Row.read? ('-' :: ' ' :: guardText (first :: rest) value) = some (.item
      (if first.utf8Size = 1 then .conditional (String.ofList (first :: rest)) (readScalar value)
        else .string (String.ofList (guardText (first :: rest) value)))) := by
  have htext := trimmed_guardText (first :: rest) hvalue hne
  have hheader : headerKey? ('-' :: ' ' :: guardText (first :: rest) value) = none := by
    refine headerKey?_eq_none.mpr (.inr ?_)
    rw [← getLast?_guardText (first :: rest) hne] at hlast
    exact hlast
  have hlist : listContent? ('-' :: ' ' :: guardText (first :: rest) value) =
      some (guardText (first :: rest) value) := by
    have hblank : startsBlank (' ' :: guardText (first :: rest) value) = true := rfl
    rw [listContent?, if_pos hblank, trim_blank_cons htext]
  rw [Row.read?, hheader, hlist]
  simp only [itemNode, splitConditional_guardText hcondition hcolon hvalue]
  split_ifs
  · rfl
  · have htrim := trim_of_trimmed htext
    rw [readScalar_of_text (htrim.symm ▸ isText_cons (by decide) rfl _), htrim]
    rfl

end

theorem read?_guarded_flag : trim "$é = 1".toList = "$é = 1".toList ∧ ':' ∉ "$é = 1".toList ∧
    trim "a: -2".toList = "a: -2".toList ∧ "a: -2".toList ≠ [] ∧
    "a: -2".toList.getLast? ≠ some ':' ∧ Row.read? "- if $é = 1: a: -2".toList =
      some (.item (.conditional "$é = 1" (.string "a: -2"))) := by
  have hcondition : trim "$é = 1".toList = "$é = 1".toList := by decide
  have hcolon : ':' ∉ "$é = 1".toList := by decide
  have hvalue : trim "a: -2".toList = "a: -2".toList := by decide
  have hne : "a: -2".toList ≠ [] := by decide
  have hlast : "a: -2".toList.getLast? ≠ some ':' := by decide
  exact ⟨hcondition, hcolon, hvalue, hne, hlast, read?_guarded hcondition hcolon hvalue hne hlast⟩

theorem read?_guarded_missed : trim ['é'] = ['é'] ∧ ':' ∉ ['é'] ∧ trim ['x'] = ['x'] ∧
    Row.read? "- if é: x".toList = some (.item (.string "if é: x")) ∧
    Row.read? "- if é: x".toList ≠ some (.item (.conditional "é" (readScalar ['x']))) := by
  have hread : Row.read? "- if é: x".toList = some (.item (.string "if é: x")) := rfl
  refine ⟨by decide, by decide, by decide, hread, ?_⟩
  rw [hread]
  simp

end LayeredConfig.Outline
