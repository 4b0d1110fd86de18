import LayeredConfig.Ascription
import LayeredConfig.Proofs.Text.Splitting
import LayeredConfig.Proofs.Text.Trimming

namespace LayeredConfig.Ascription

open Text

def bracketed (typeName : List Char) : List Char := '<' :: typeName ++ ['>']

lemma open_not_mem_name {typeName : List Char} (h : isName typeName) :
    ∀ c ∈ typeName, (c == '<') = false := by
  intro c hc
  have hname : isNameChar c = true := List.all_eq_true.mp (Bool.and_eq_true_iff.mp h).2 c hc
  rw [beq_eq_false_iff_ne]
  rintro rfl
  simp [isNameChar] at hname

lemma read?_eq_some {key : String} {a : Ascription} :
    read? key = some a ↔ ∃ base typeName, key.toList = base ++ bracketed typeName ∧
      isName typeName ∧
      a = ⟨if base.isEmpty then key else String.ofList base, String.ofList typeName⟩ := by
  constructor
  · intro h
    simp only [read?, Option.bind_eq_bind, Option.bind_eq_some_iff] at h
    obtain ⟨inner, hinner, ⟨base, mark, typeName⟩, hcut, h⟩ := h
    obtain ⟨rfl, hmark, -⟩ := cutLast_eq_some.mp hcut
    obtain rfl : mark = '<' := by simpa using hmark
    dsimp only at h
    split at h
    · rename_i hname
      refine ⟨base, typeName, ?_, hname, (Option.some.inj h).symm⟩
      rw [dropEnd?_eq_some.mp hinner, bracketed]
      simp
    · cases h
  · rintro ⟨base, typeName, hkey, hname, rfl⟩
    have hinner : dropEnd? ['>'] key.toList = some (base ++ '<' :: typeName) := by
      rw [dropEnd?_eq_some, hkey, bracketed]
      simp
    have hcut : cutLast (· == '<') (base ++ '<' :: typeName) = some (base, '<', typeName) :=
      cutLast_eq_some.mpr ⟨rfl, by decide, open_not_mem_name hname⟩
    simp [read?, hinner, hcut, hname]

lemma strip_of_unannotated {key : String} (h : read? key = none) : strip key = key := by
  simp [strip, h]

lemma strip_cases (key : String) :
    (read? key = none ∧ strip key = key) ∨
      ∃ base typeName, key.toList = base ++ bracketed typeName ∧ isName typeName ∧
        strip key = if base.isEmpty then key else String.ofList base := by
  cases h : read? key with
  | none => exact .inl ⟨rfl, strip_of_unannotated h⟩
  | some a =>
    obtain ⟨base, typeName, hkey, hname, rfl⟩ := read?_eq_some.mp h
    exact .inr ⟨base, typeName, hkey, hname, by simp [strip, h]⟩

lemma length_strip (key : String) : strip key = key ∨ (strip key).length < key.length := by
  obtain ⟨-, hstrip⟩ | ⟨base, typeName, hkey, -, hstrip⟩ := strip_cases key
  · exact .inl hstrip
  · cases base with
    | nil => exact .inl hstrip
    | cons c base =>
      right
      have hlength : key.length = (c :: base ++ bracketed typeName).length := by
        rw [← hkey, String.length_toList]
      rw [hstrip, hlength, if_neg (by simp), String.length_ofList, List.length_append, bracketed]
      simp

end LayeredConfig.Ascription
