import LayeredConfig.Proofs.Success
import LayeredConfig.Proofs.Text.Trimming
import LayeredConfig.Schema.Conformance

namespace LayeredConfig.Schema

open Number Text Spec

inductive Textual : Node → Prop
  | string (s : String) : Textual (.string s)

inductive Boolean : Node → Prop
  | bool (b : Bool) : Boolean (.bool b)

inductive Numeric : Node → Prop
  | int (n : Int64) : Numeric (.int n)
  | float (x : Float) : Numeric (.float x)
  | text {s : String} (h : isNumeric (trim s.toList) = true) : Numeric (.string s)

inductive PlainType : String → String → (Node → Prop) → Prop
  | string : PlainType "string" "string" Textual
  | int : PlainType "int" "int" Numeric
  | number : PlainType "number" "number" Numeric
  | bool : PlainType "bool" "boolean" Boolean
  | boolean : PlainType "boolean" "boolean" Boolean

def listOf (element : String) : String := "list<" ++ element ++ ">"

inductive Describes : String → String → Bool → Prop
  | optional (name : String) : Describes (name ++ "?") name true
  | required {name : String} (h : ∀ stem, name ≠ stem ++ "?") : Describes name name false

lemma elementName?_eq_some {name element : List Char} :
    elementName? name = some element ↔ name = "list<".toList ++ element ++ ['>'] := by
  rw [elementName?, Option.bind_eq_some_iff]
  constructor
  · rintro ⟨body, hbody, helement⟩
    rw [dropStart?_eq_some.mp hbody, dropEnd?_eq_some.mp helement]
    rfl
  · rintro rfl
    exact ⟨element ++ ['>'], dropStart?_eq_some.mpr (by simp), dropEnd?_eq_some.mpr rfl⟩

lemma ofName_of_element {name element : List Char} (h : elementName? name = some element) :
    ofName name = .list (ofName element) := by
  rw [ofName]
  split <;> simp_all

lemma ofName_of_none {name : List Char} (h : elementName? name = none) :
    ofName name = ofPlainName name := by
  rw [ofName]
  split <;> simp_all

lemma ofNode_listOf (element : String) :
    ofNode (.string (listOf element)) = .list (ofNode (.string element)) := by
  have helement : elementName? (listOf element).toList = some element.toList :=
    elementName?_eq_some.mpr (by simp [listOf])
  rw [ofNode, ofName_of_element helement, ofNode]

lemma isNumber_iff {value : Node} : isNumber value = true ↔ Numeric value := by
  constructor
  · intro h
    match value, h with
    | .int n, _ => exact .int n
    | .float x, _ => exact .float x
    | .string s, h => exact .text h
  · rintro (_ | _ | h)
    · rfl
    · rfl
    · exact h

lemma kind_eq_string_iff {value : Node} : (value.kind == .string) = true ↔ Textual value := by
  constructor
  · intro h
    cases value with
    | string s => exact .string s
    | _ => cases h
  · rintro ⟨s⟩
    rfl

lemma kind_eq_bool_iff {value : Node} : (value.kind == .bool) = true ↔ Boolean value := by
  constructor
  · intro h
    cases value with
    | bool b => exact .bool b
    | _ => cases h
  · rintro ⟨b⟩
    rfl

lemma ofNode_plain {name : String} (h : elementName? name.toList = none) :
    ofNode (.string name) = ofPlainName name.toList := by
  rw [ofNode, ofName_of_none h]

section

variable {name called : String} {p : Node → Prop} (path : String) (value : Node)

lemma check_plain (h : PlainType name called p) :
    ∃ holds, (holds = true ↔ p value) ∧
      check (.ofNode (.string name)) path value = expect holds path called value := by
  cases h with
  | string => exact ⟨_, kind_eq_string_iff, by rw [ofNode_plain rfl]; rfl⟩
  | int => exact ⟨_, isNumber_iff, by rw [ofNode_plain rfl]; rfl⟩
  | number => exact ⟨_, isNumber_iff, by rw [ofNode_plain rfl]; rfl⟩
  | bool => exact ⟨_, kind_eq_bool_iff, by rw [ofNode_plain rfl]; rfl⟩
  | boolean => exact ⟨_, kind_eq_bool_iff, by rw [ofNode_plain rfl]; rfl⟩

lemma check_of_plain (h : PlainType name called p) (hp : p value) :
    check (.ofNode (.string name)) path value = .ok () := by
  obtain ⟨holds, hholds, hcheck⟩ := check_plain path value h
  rw [hcheck, expect, if_pos (hholds.mpr hp)]

lemma check_of_not_plain (h : PlainType name called p) (hp : ¬ p value) :
    check (.ofNode (.string name)) path value = .error (.type path called value.kind) := by
  obtain ⟨holds, hholds, hcheck⟩ := check_plain path value h
  rw [hcheck, expect, if_neg (mt hholds.mp hp)]

lemma check_unknown (hplain : ∀ called p, ¬ PlainType name called p)
    (hlist : ∀ element, name ≠ listOf element) :
    check (.ofNode (.string name)) path value = .ok () := by
  have hnone : elementName? name.toList = none := by
    rw [Option.eq_none_iff_forall_ne_some]
    intro element helement
    apply hlist (String.ofList element)
    rw [← String.toList_inj, elementName?_eq_some.mp helement]
    simp [listOf]
  have hother : ofPlainName name.toList = .unchecked name := by
    rw [ofPlainName, String.ofList_toList]
    split
    · exact absurd .string (hplain _ _)
    · exact absurd .int (hplain _ _)
    · exact absurd .number (hplain _ _)
    · exact absurd .bool (hplain _ _)
    · exact absurd .boolean (hplain _ _)
    · rfl
  rw [ofNode_plain hnone, hother]
  rfl

end

lemma fieldName_eq {key name : String} {isOptional : Bool} (h : Describes key name isOptional) :
    fieldName key = (name, isOptional) := by
  cases h with
  | optional =>
    have hstripped : dropEnd? ['?'] (name ++ "?").toList = some name.toList :=
      dropEnd?_eq_some.mpr (by simp)
    rw [fieldName, hstripped]
    exact congrArg (·, true) String.ofList_toList
  | required h =>
    rw [fieldName]
    cases hstripped : dropEnd? ['?'] key.toList with
    | none => rfl
    | some stem =>
      refine absurd ?_ (h (String.ofList stem))
      rw [← String.toList_inj, dropEnd?_eq_some.mp hstripped]
      simp

lemma exists_describes (key : String) : ∃ name isOptional, Describes key name isOptional := by
  by_cases h : ∃ stem, key = stem ++ "?"
  · obtain ⟨stem, rfl⟩ := h
    exact ⟨stem, true, .optional stem⟩
  · exact ⟨key, false, .required (not_exists.mp h)⟩

end LayeredConfig.Schema
