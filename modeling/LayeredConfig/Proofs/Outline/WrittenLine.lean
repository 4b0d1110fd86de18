import LayeredConfig.Outline.Writer
import LayeredConfig.Proofs.Outline.BareLine
import LayeredConfig.Proofs.Outline.Scalars

namespace LayeredConfig.Outline

open Number Text

structure PlainKey (key : String) : Prop where
  nonempty : key ≠ ""
  trimmed : trim key.toList = key.toList
  unmarked : ∀ c ∈ ['\n', ':', '='], c ∉ key.toList
  uncommented : ∀ start ∈ [['#'], ['%'], ['-', '-', '-']], ¬ start <+: key.toList
  unlisted : ∀ c, isBlank c = true → ¬ ['-', c] <+: key.toList

lemma listContent?_eq_none {s : List Char} :
    listContent? s = none ↔ ∀ c, isBlank c = true → ¬ ['-', c] <+: s := by
  constructor
  · rintro h c hc ⟨rest, rfl⟩
    simp [listContent?, startsBlank, hc] at h
  · intro h
    unfold listContent?
    split
    · rename_i rest
      cases rest with
      | nil => rfl
      | cons c rest =>
        have hc : ¬ isBlank c = true := fun hblank => h c hblank ⟨rest, rfl⟩
        exact if_neg hc
    · rfl

instance : DecidablePred PlainKey := fun key =>
  decidable_of_iff
    (key ≠ "" ∧ trim key.toList = key.toList ∧
      ['\n', ':', '='].all (!key.toList.contains ·) = true ∧
      [['#'], ['%'], ['-', '-', '-']].all (!·.isPrefixOf key.toList) = true ∧
      listContent? key.toList = none) <| by
    rw [listContent?_eq_none]
    simp only [List.all_eq_true, Bool.not_eq_true', ← Bool.not_eq_true, List.contains_iff_mem,
      List.isPrefixOf_iff_prefix]
    exact ⟨fun ⟨hne, htrim, hmark, hcomment, hlist⟩ => ⟨hne, htrim, hmark, hcomment, hlist⟩,
      fun h => ⟨h.nonempty, h.trimmed, h.unmarked, h.uncommented, h.unlisted⟩⟩

def Inline : Node → Prop
  | .bool _ | .int _ => True
  | .string s => '\n' ∉ s.toList
  | _ => False

structure Closing (text : List Char) : Prop extends Trimmed text where
  nonempty : text ≠ []
  solid : '\n' ∉ text
  final : text.getLast? ≠ some ':'

lemma Closing.getLast?_cons_cons {text : List Char} (h : Closing text) (mark : Char) :
    (mark :: ' ' :: text).getLast? = text.getLast? := by
  rw [List.getLast?_cons_of_ne_nil (List.cons_ne_nil _ _),
    List.getLast?_cons_of_ne_nil h.nonempty]

lemma digit_or_minus {n : Int} {c : Char} (h : c ∈ (toString n).toList) :
    c.isDigit = true ∨ c = '-' := by
  rw [toList_toString, minus] at h
  split at h
  · obtain rfl | h := List.mem_cons.mp h
    · exact .inr rfl
    · exact .inl (isDigit_of_mem_decimal h)
  · exact .inl (isDigit_of_mem_decimal h)

lemma toString_not_blank {n : Int} {c : Char} (h : c ∈ (toString n).toList) :
    isBlank c = false := by
  obtain hdigit | rfl := digit_or_minus h
  · exact isDigit_not_blank hdigit
  · rfl

lemma closing_toString (n : Int) : Closing (toString n).toList := by
  refine ⟨trimmed_of_all fun c => toString_not_blank, toString_ne_nil n, fun h => ?_, fun h => ?_⟩
  · exact absurd (toString_not_blank h) (by decide)
  · obtain hdigit | heq := digit_or_minus (List.mem_of_getLast? h)
    · exact absurd hdigit (by decide)
    · exact absurd heq (by decide)

lemma closing_quoted {s : List Char} (h : '\n' ∉ s) : Closing ('"' :: s ++ ['"']) := by
  have hlast : ('"' :: s ++ ['"']).getLast? = some '"' := List.getLast?_concat
  refine ⟨⟨?_, ?_⟩, List.cons_ne_nil _ _, ?_, ?_⟩
  · rintro c ⟨⟩
    rfl
  · rw [hlast]
    rintro c ⟨⟩
    rfl
  · simpa using h
  · rw [hlast]
    decide

lemma closing_scalarText {n : Node} (h : Inline n) : Closing (scalarText n) := by
  match n, h with
  | .bool value, _ =>
    cases value <;> refine ⟨⟨?_, ?_⟩, List.cons_ne_nil _ _, by decide, by decide⟩
    all_goals
      rintro c ⟨⟩
      rfl
  | .int n, _ => exact closing_toString n.toInt
  | .string s, h => exact closing_quoted h

lemma readScalar_of_read {s : List Char} {l : Literal} (hread : Literal.read s = some l)
    (hblank : ∀ c ∈ s, isBlank c = false) : readScalar s = numberNode l :=
  readScalar_of_literal (by rwa [trim_of_trimmed (trimmed_of_all hblank)])

lemma readScalar_toString (n : Int64) : readScalar (toString n.toInt).toList = .int n := by
  rw [readScalar_of_read (read_toString n.toInt) fun c => toString_not_blank, numberNode,
    int64?_wholeLiteral]
  rfl

lemma readScalar_quoted {s : List Char} (h : '\n' ∉ s) :
    readScalar ('"' :: s ++ ['"']) = .string (String.ofList s) :=
  readScalar_of_quotes ⟨'"', by decide, trim_of_trimmed (closing_quoted h).toTrimmed⟩

lemma readScalar_scalarText {n : Node} (h : Inline n) : readScalar (scalarText n) = n := by
  match n, h with
  | .bool true, _ => rfl
  | .bool false, _ => rfl
  | .int n, _ => exact readScalar_toString n
  | .string s, h =>
    rw [scalarText, readScalar_quoted h, String.ofList_toList]

lemma splitConditional_scalarText {n : Node} (h : Inline n) :
    splitConditional (scalarText n) = none := by
  match n, h with
  | .bool true, _ => rfl
  | .bool false, _ => rfl
  | .string s, _ => rfl
  | .int n, _ =>
    obtain ⟨c, rest, htext⟩ := List.exists_cons_of_ne_nil (toString_ne_nil n.toInt)
    have hc : ¬ 'i' = c := by
      rintro rfl
      have hcases := digit_or_minus (n := n.toInt) (htext ▸ List.mem_cons_self)
      exact absurd hcases (by decide)
    rw [scalarText, htext, splitConditional, dropStart?, if_neg hc]
    rfl

lemma itemNode_scalarText {n : Node} (h : Inline n) : itemNode (scalarText n) = n := by
  rw [itemNode, splitConditional_scalarText h]
  exact readScalar_scalarText h

lemma blanks_padding (depth : Nat) : Blanks (padding depth) := by
  intro c hc
  obtain rfl := List.eq_of_mem_replicate hc
  rfl

lemma mark?_padding {text : List Char} (htext : Trimmed text) (hne : text ≠ [])
    (hskip : isSkipped text = false) (depth : Nat) :
    mark? (padding depth ++ text) = some (2 * depth, Row.read? text) := by
  have hnone : Blanks [] := fun _ hc => absurd hc List.not_mem_nil
  have htrim : trim (padding depth ++ text) = text := by
    simpa using trim_append (blanks_padding depth) htext hne hnone
  have hspaces : (padding depth).takeWhile (fun c => c == ' ' || c == '\t') = padding depth := by
    apply List.takeWhile_eq_self_iff.mpr
    intro c hc
    obtain rfl := List.eq_of_mem_replicate hc
    rfl
  have hindent : indentOf (padding depth ++ text) = 2 * depth := by
    have happend : indentOf (padding depth ++ text ++ []) = _ := indentOf_append hne htext.first []
    rwa [List.append_nil, hspaces, padding, List.length_replicate] at happend
  rw [mark?, htrim, hskip, hindent, if_neg Bool.false_ne_true]

section

variable {key : String} (hkey : PlainKey key)
include hkey

lemma PlainKey.toList_ne_nil : key.toList ≠ [] :=
  fun h => hkey.nonempty (String.toList_eq_nil_iff.mp h)

lemma PlainKey.trimmed_append {after : List Char} (hafter : ∀ c ∈ after.getLast?, isBlank c = false)
    (hne : after ≠ []) : Trimmed (key.toList ++ after) := by
  constructor
  · rw [List.head?_append_of_ne_nil _ hkey.toList_ne_nil]
    exact (hkey.trimmed ▸ trimmed_trim key.toList).first
  · rwa [List.getLast?_append_of_ne_nil _ hne]

lemma PlainKey.isSkipped_append (after : List Char) :
    isSkipped (key.toList ++ ':' :: after) = false := by
  have hstart : ∀ start ∈ [['#'], ['%'], ['-', '-', '-']],
      ¬ start <+: key.toList ++ ':' :: after := by
    intro start hmem hprefix
    refine hkey.uncommented start hmem (List.prefix_of_prefix_length_le hprefix
      (List.prefix_append _ _) ?_)
    by_contra hlt
    -- The text is longer than the key, so it would hold the colon.
    have hcolon : key.toList ++ [':'] <+: start := by
      refine List.prefix_of_prefix_length_le (List.prefix_append_right_inj _ |>.mpr ?_) hprefix ?_
      · exact List.prefix_append [':'] after
      · simpa [Nat.succ_le_iff] using hlt
    have hin : ':' ∈ start := hcolon.subset (by simp)
    simp only [List.mem_cons, List.not_mem_nil, or_false] at hmem
    obtain rfl | rfl | rfl := hmem <;> exact absurd hin (by decide)
  unfold isSkipped
  split
  · rename_i h
    simp at h
  · rename_i rest h
    exact absurd ⟨rest, h.symm⟩ (hstart ['#'] (by simp))
  · rename_i rest h
    exact absurd ⟨rest, h.symm⟩ (hstart ['%'] (by simp))
  · rename_i rest h
    exact absurd ⟨rest, h.symm⟩ (hstart ['-', '-', '-'] (by simp))
  · rfl

lemma PlainKey.listContent?_append (after : List Char) :
    listContent? (key.toList ++ ':' :: after) = none := by
  rw [listContent?_eq_none]
  rintro c hc ⟨rest, hline⟩
  obtain ⟨first, others, hcons⟩ := List.exists_cons_of_ne_nil hkey.toList_ne_nil
  rw [hcons, List.cons_append, List.cons_append] at hline
  obtain ⟨rfl, htail⟩ := List.cons.inj hline
  cases others with
  | nil =>
    obtain ⟨rfl, -⟩ := List.cons.inj htail
    exact absurd hc (by decide)
  | cons d others =>
    obtain ⟨rfl, -⟩ := List.cons.inj htail
    exact hkey.unlisted c hc ⟨others, hcons.symm⟩

lemma mark?_headerLine (depth : Nat) :
    mark? (headerLine depth key) = some (2 * depth, some (.header key)) := by
  have htext : Trimmed (key.toList ++ [':']) := hkey.trimmed_append (by rintro c ⟨⟩; rfl) (by simp)
  have hequal : '=' ∉ key.toList ++ [':'] := by
    simpa using hkey.unmarked '=' (by simp)
  have hheader : headerKey? (key.toList ++ [':']) = some key.toList :=
    headerKey?_eq_some.mpr ⟨hequal, key.toList, rfl, hkey.trimmed⟩
  rw [headerLine, List.append_assoc,
    mark?_padding htext (by simp) (hkey.isSkipped_append []), Row.read?, hheader]
  simp

lemma mark?_entryLine {value : Node} (hvalue : Inline value) (depth : Nat) :
    mark? (entryLine depth key value) = some (2 * depth, some (.entry key value)) := by
  have hclosing := closing_scalarText hvalue
  have hafter := hclosing.getLast?_cons_cons ':'
  have htext : Trimmed (key.toList ++ ':' :: ' ' :: scalarText value) :=
    hkey.trimmed_append (hafter ▸ hclosing.last) (List.cons_ne_nil _ _)
  have hheader : headerKey? (key.toList ++ ':' :: ' ' :: scalarText value) = none := by
    rw [headerKey?_eq_none, List.getLast?_append_cons, hafter]
    exact .inr hclosing.final
  have hcut : cut (fun c => c == ':' || c == '=') (key.toList ++ ':' :: ' ' :: scalarText value) =
      some (key.toList, ':', ' ' :: scalarText value) := by
    refine cut_eq_some.mpr ⟨rfl, rfl, fun c hc => ?_⟩
    rw [Bool.or_eq_false_iff, beq_eq_false_iff_ne, beq_eq_false_iff_ne]
    constructor
    · rintro rfl
      exact hkey.unmarked ':' (by simp) hc
    · rintro rfl
      exact hkey.unmarked '=' (by simp) hc
  obtain ⟨c, rest, hcons⟩ := List.exists_cons_of_ne_nil hkey.toList_ne_nil
  have hentry : readEntry (key.toList ++ ':' :: ' ' :: scalarText value) =
      some (.entry key value) := by
    rw [readEntry, hcut, hcons]
    simp only [Char.reduceEq, if_false, trim_blank_cons hclosing.toTrimmed, readScalar_scalarText hvalue]
    rw [← hcons, hkey.trimmed, String.ofList_toList]
  rw [entryLine, List.append_assoc,
    mark?_padding htext (by simp) (hkey.isSkipped_append _), Row.read?, hheader,
    hkey.listContent?_append, hentry]

end

lemma mark?_itemLine {item : Node} (hitem : Inline item) (depth : Nat) :
    mark? (itemLine depth item) = some (2 * depth, some (.item item)) := by
  have hclosing := closing_scalarText hitem
  have hlast := hclosing.getLast?_cons_cons '-'
  have htext : Trimmed ('-' :: ' ' :: scalarText item) := by
    refine ⟨?_, hlast ▸ hclosing.last⟩
    rintro c ⟨⟩
    rfl
  have hheader : headerKey? ('-' :: ' ' :: scalarText item) = none := by
    rw [headerKey?_eq_none, hlast]
    exact .inr hclosing.final
  have hlist : listContent? ('-' :: ' ' :: scalarText item) = some (scalarText item) := by
    have hblank : startsBlank (' ' :: scalarText item) = true := rfl
    rw [listContent?, if_pos hblank, trim_blank_cons hclosing.toTrimmed]
  rw [itemLine, mark?_padding htext (List.cons_ne_nil _ _) rfl, Row.read?, hheader, hlist]
  simp only [itemNode_scalarText hitem]

end LayeredConfig.Outline
