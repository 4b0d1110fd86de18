import LayeredConfig.Node.Json
import LayeredConfig.Proofs.Outline.Scalars

namespace LayeredConfig.Outline

open Number Text

structure IsArgument (arg : String) : Prop where
  nonempty : arg ≠ ""
  trimmed : trim arg.toList = arg.toList
  uncut : ',' ∉ arg.toList

structure IsCall (name : String) (args : List String) : Prop where
  named : name ≠ ""
  plain : ∀ c ∈ name.toList, c.isAlphanum = true ∨ c = '_'
  filled : ∀ arg ∈ args, IsArgument arg

lemma invocation_tagText {name : String} {args : List String} (h : IsCall name args) :
    Invocation (Node.tagText name args).toList name.toList (", ".intercalate args).toList := by
  refine ⟨?_, h.plain, by simp [Node.tagText]⟩
  simpa using h.named

lemma arguments_comma (first rest : List Char) :
    arguments (first ++ ',' :: rest) = arguments first ++ arguments rest := by
  simp [arguments, List.splitOn_append_cons_self]

lemma arguments_blank (inner : List Char) : arguments (' ' :: inner) = arguments inner := by
  have hblank : Blanks [' '] := by decide
  obtain ⟨part, parts, hsplit⟩ := List.exists_cons_of_ne_nil (List.splitOn_ne_nil ',' inner)
  have htrim : trim (' ' :: part) = trim part := trim_blanks_append hblank part
  simp [arguments, List.splitOn_cons_eq_if_modifyHead, hsplit, htrim]

lemma arguments_of_isArgument {arg : String} (h : IsArgument arg) : arguments arg.toList = [arg] := by
  have hne : arg.toList ≠ [] := by simpa using h.nonempty
  simp [arguments, List.splitOn_eq_singleton h.uncut, h.trimmed, hne]

lemma arguments_intercalate {args : List String} (h : ∀ arg ∈ args, IsArgument arg) :
    arguments (", ".intercalate args).toList = args := by
  induction args with
  | nil => rfl
  | cons arg args ih =>
    obtain ⟨harg, hargs⟩ := List.forall_mem_cons.mp h
    cases args with
    | nil => simpa using arguments_of_isArgument harg
    | cons next args =>
      have hjoined : (", ".intercalate (arg :: next :: args)).toList =
          arg.toList ++ ',' :: ' ' :: (", ".intercalate (next :: args)).toList := by
        simp
      rw [hjoined, arguments_comma, arguments_blank, arguments_of_isArgument harg, ih hargs]
      rfl

lemma isArgument_of_mem_arguments {inner : List Char} {arg : String} (h : arg ∈ arguments inner) :
    IsArgument arg := by
  simp only [arguments, List.mem_map, List.mem_filter, decide_eq_true_eq] at h
  obtain ⟨_, ⟨⟨part, hpart, rfl⟩, hne⟩, rfl⟩ := h
  obtain ⟨before, behind, -, -, hsplit⟩ := trim_split part
  rw [← pieces_eq_splitOn] at hpart
  refine ⟨by simpa using hne, ?_, ?_⟩
  · rw [String.toList_ofList]
    exact trim_of_trimmed (trimmed_trim part)
  · intro hcomma
    rw [String.toList_ofList] at hcomma
    apply not_mem_of_mem_pieces hpart
    rw [hsplit]
    simp [hcomma]

lemma readScalar_of_isCall {name : String} {args : List String} (h : IsCall name args) :
    readScalar (Node.tagText name args).toList = .tag name args := by
  have hinvocation := invocation_tagText h
  have htrim : trim (Node.tagText name args).toList = (Node.tagText name args).toList := by
    apply trim_of_trimmed
    rw [hinvocation.split]
    constructor
    · rintro c ⟨⟩
      rfl
    · simp [List.getLast?_cons, isBlank]
  rw [readScalar_of_invocation (htrim.symm ▸ hinvocation), arguments_intercalate h.filled,
    String.ofList_toList]

lemma isCall_of_readScalar {raw : List Char} {name : String} {args : List String}
    (h : readScalar raw = .tag name args) : IsCall name args := by
  obtain ⟨inner, hinvocation, rfl⟩ := (h ▸ shape_readScalar raw).invocation
  refine ⟨?_, hinvocation.plain, fun arg => isArgument_of_mem_arguments⟩
  simpa using hinvocation.named

/-- A tag can be written and read again, whatever stands in its arguments but commas and blanks
around them. That holds in particular for a tag that was read. -/
theorem readScalar_tagText (name : String) (args : List String) :
    (IsCall name args → readScalar (Node.tagText name args).toList = .tag name args) ∧
    ∀ raw, readScalar raw = .tag name args →
      IsCall name args ∧ readScalar (Node.tagText name args).toList = readScalar raw := by
  refine ⟨readScalar_of_isCall, fun raw h => ?_⟩
  have hcall := isCall_of_readScalar h
  exact ⟨hcall, h.symm ▸ readScalar_of_isCall hcall⟩

theorem readScalar_tagText_brackets : IsCall "f_1" ["(a", "\"b)!", "é 'x"] ∧
    Node.tagText "f_1" ["(a", "\"b)!", "é 'x"] = "!f_1((a, \"b)!, é 'x)" ∧
    readScalar "!f_1((a, \"b)!, é 'x)".toList = .tag "f_1" ["(a", "\"b)!", "é 'x"] := by
  have hfilled : ∀ arg ∈ ["(a", "\"b)!", "é 'x"], IsArgument arg := by
    simp only [List.forall_mem_cons]
    exact ⟨⟨by decide, by decide, by decide⟩, ⟨by decide, by decide, by decide⟩,
      ⟨by decide, by decide, by decide⟩, by simp⟩
  have hname : isName "f_1".toList = true := by decide
  have hcall : IsCall "f_1" ["(a", "\"b)!", "é 'x"] := ⟨by decide, (isName_iff.mp hname).2, hfilled⟩
  have htext : Node.tagText "f_1" ["(a", "\"b)!", "é 'x"] = "!f_1((a, \"b)!, é 'x)" := rfl
  exact ⟨hcall, htext, htext ▸ (readScalar_tagText _ _).1 hcall⟩

end LayeredConfig.Outline
