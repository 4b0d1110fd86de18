import LayeredConfig.Formula.Evaluation
import LayeredConfig.Proofs.Formula.Leaves

namespace LayeredConfig.Formula

inductive Origin (scope : Scope) : Node → Prop where
  | null : Origin scope .null
  | text (s : String) : Origin scope (.string s)
  | computed {n : Node} (h : Computed n) : Origin scope n
  | «variable» {name : String} {n : Node} (h : scope.environment.get? name = some n) :
      Origin scope n
  | symbol {name : String} {n : Node} (h : Fields.get? scope.symbols name = some n) :
      Origin scope n

variable {scope : Scope}

lemma atom_origin {t : Lexeme} {leaf : Term} (ha : atom? t = some leaf) {n : Node}
    (h : leaf.value scope = .ok n) : Origin scope n := by
  cases t with
  | «variable» name =>
    cases ha
    cases h
    cases hg : scope.environment.get? name with
    | none => exact .null
    | some n => exact .variable hg
  | symbol name =>
    cases ha
    rw [Term.value] at h
    split at h
    case h_1 m hg =>
      cases h
      exact .symbol hg
    case h_2 => cases h
  | text =>
    cases ha
    cases h
    exact .text _
  | null =>
    cases ha
    cases h
    exact .null
  | int | float | bool =>
    cases ha
    cases h
    exact .computed trivial
  | _ => cases ha

lemma evaluate?_origin {s : List Char} {n : Node} (h : evaluate? scope s = .ok n) :
    Origin scope n := by
  obtain ⟨ts, -, h⟩ := bind_eq_ok.mp h
  obtain ⟨term, hterm, h⟩ := bind_eq_ok.mp h
  obtain hcomputed | ⟨leaf, hleaf, hvalue⟩ := value_cases h
  · exact .computed hcomputed
  · obtain ⟨t, -, ha⟩ := List.mem_filterMap.mp (readTerm_leaves hterm hleaf)
    exact atom_origin ha hvalue

lemma evaluatePlain_origin (scope : Scope) (s : List Char) :
    Origin scope (evaluatePlain scope s).value := by
  rw [evaluatePlain]
  split
  · exact .text _
  · split
    · exact evaluate?_origin ‹_›
    · exact .text _

lemma get?_of_filled {e : Environment} {name : String} {n : Node} (h : filled? e name = some n) :
    e.get? name = some n := by
  rw [filled?] at h
  split at h
  · cases h
  · cases h
  · exact h

lemma evaluate_origin (scope : Scope) (s : List Char) : Origin scope (evaluate scope s).value := by
  rw [evaluate]
  split
  · exact evaluatePlain_origin scope s
  · split
    · exact .variable (get?_of_filled ‹_›)
    · exact evaluatePlain_origin scope _

end LayeredConfig.Formula
