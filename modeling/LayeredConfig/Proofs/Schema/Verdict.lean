import LayeredConfig.Proofs.Schema.Types
import Mathlib

/-! The verdict of the check. -/

namespace LayeredConfig.Schema

open Spec

inductive Conforms : Node → Node → Prop
  | plain {name called : String} {p : Node → Prop} {value : Node}
      (hname : PlainType name called p) (h : p value) : Conforms (.string name) value
  | list {element : String} {items : List Node}
      (h : ∀ item ∈ items, Conforms (.string element) item) :
      Conforms (.string (listOf element)) (.sequence items)
  | object {fields entries : Mapping}
      (hpresent : ∀ key spec name, (key, spec) ∈ fields → Describes key name false →
        Fields.get? entries name ≠ none)
      (h : ∀ key spec name isOptional value, (key, spec) ∈ fields →
        Describes key name isOptional → Fields.get? entries name = some value →
        Conforms spec value) :
      Conforms (.mapping fields) (.mapping entries)
  | unknown {name : String} {value : Node} (hplain : ∀ called p, ¬ PlainType name called p)
      (hlist : ∀ element, name ≠ listOf element) : Conforms (.string name) value
  | other {spec value : Node} (hstring : spec.kind ≠ .string) (hobject : spec.kind ≠ .object) :
      Conforms spec value

inductive Step where
  | field (name : String)
  | item (index : Nat)
  deriving Repr, DecidableEq

inductive Flaw where
  | type (expected : String) (actual : Kind)
  | missing (field : String)
  deriving Repr, DecidableEq

/-- The steps that lead to the first position at which a value does not conform, in the order of the
items and of the fields of the schema: all that comes before it conforms. -/
inductive FirstFlaw : Node → Node → List Step → Flaw → Prop
  | plain {name called : String} {p : Node → Prop} {value : Node}
      (hname : PlainType name called p) (h : ¬ p value) :
      FirstFlaw (.string name) value [] (.type called value.kind)
  | noList {element : String} {value : Node} (h : value.kind ≠ .list) :
      FirstFlaw (.string (listOf element)) value [] (.type "list" value.kind)
  | item {element : String} {before after : List Node} {item : Node} {steps : List Step}
      {flaw : Flaw} (hbefore : Conforms (.string (listOf element)) (.sequence before))
      (h : FirstFlaw (.string element) item steps flaw) :
      FirstFlaw (.string (listOf element)) (.sequence (before ++ item :: after))
        (.item before.length :: steps) flaw
  | noObject {fields : Mapping} {value : Node} (h : value.kind ≠ .object) :
      FirstFlaw (.mapping fields) value [] (.type "object" value.kind)
  | missing {before after entries : Mapping} {key name : String} {spec : Node}
      (hbefore : Conforms (.mapping before) (.mapping entries)) (hname : Describes key name false)
      (h : Fields.get? entries name = none) :
      FirstFlaw (.mapping (before ++ (key, spec) :: after)) (.mapping entries) [] (.missing name)
  | field {before after entries : Mapping} {key name : String} {isOptional : Bool}
      {spec value : Node} {steps : List Step} {flaw : Flaw}
      (hbefore : Conforms (.mapping before) (.mapping entries))
      (hname : Describes key name isOptional) (hvalue : Fields.get? entries name = some value)
      (h : FirstFlaw spec value steps flaw) :
      FirstFlaw (.mapping (before ++ (key, spec) :: after)) (.mapping entries)
        (.field name :: steps) flaw

def Step.extend (path : String) : Step → String
  | .field name => if path = "" then name else path ++ "." ++ name
  | .item index => path ++ "[" ++ toString index ++ "]"

def pathTo (path : String) (steps : List Step) : String := steps.foldl Step.extend path

def Flaw.at (path : String) : Flaw → Mismatch
  | .type expected actual => .type path expected actual
  | .missing field => .missing field path

lemma joinPath_eq (path name : String) :
    Ascription.joinPath path name = Step.extend path (.field name) := by
  simp [Ascription.joinPath, Step.extend]

section

variable (test : String → Node → Except Mismatch Unit) (path : String)

lemma checkItems_append (index : Nat) (before after : List Node) :
    checkItems test path index (before ++ after) = checkItems test path index before >>=
      fun _ => checkItems test path (index + before.length) after := by
  induction before generalizing index with
  | nil => rfl
  | cons item before ih =>
    rw [List.cons_append, checkItems, checkItems, bind_assoc]
    refine bind_congr fun _ => ?_
    rw [ih, List.length_cons, Nat.add_right_comm, Nat.add_assoc]

variable {test}

lemma checkItems_of_forall {items : List Node} (h : ∀ item ∈ items, ∀ path, test path item = .ok ())
    (index : Nat) : checkItems test path index items = .ok () := by
  induction items generalizing index with
  | nil => rfl
  | cons item rest ih =>
    obtain ⟨hitem, hrest⟩ := List.forall_mem_cons.mp h
    exact bind_eq_ok.mpr ⟨(), hitem _, ih hrest _⟩

end

lemma ofFields_append (before after : List (String × Node)) :
    ofFields (before ++ after) = ofFields before ++ ofFields after := by
  induction before with
  | nil => rfl
  | cons field before ih =>
    obtain ⟨key, spec⟩ := field
    rw [List.cons_append, ofFields, ofFields, ih]
    rfl

section

variable (path : String) (entries : Mapping)

lemma checkFields_append (before after : List (String × Bool × Spec)) :
    checkFields (before ++ after) path entries = checkFields before path entries >>=
      fun _ => checkFields after path entries := by
  induction before with
  | nil => rfl
  | cons field before ih =>
    obtain ⟨name, isOptional, spec⟩ := field
    rw [List.cons_append, checkFields, checkFields, ih]
    cases Fields.get? entries name with
    | none => cases isOptional <;> rfl
    | some value => exact (bind_assoc _ _ _).symm

section

variable {key name : String} {isOptional : Bool} (hname : Describes key name isOptional)
  (spec : Node)
include hname

lemma checkFields_present {value : Node} (h : Fields.get? entries name = some value) :
    checkFields (ofFields [(key, spec)]) path entries =
      check (.ofNode spec) (Step.extend path (.field name)) value := by
  rw [ofFields, fieldName_eq hname, ← joinPath_eq]
  simp only [ofFields, checkFields, h]
  exact bind_pure _

lemma checkFields_absent (h : Fields.get? entries name = none) :
    checkFields (ofFields [(key, spec)]) path entries =
      if isOptional then .ok () else .error (.missing name path) := by
  rw [ofFields, fieldName_eq hname]
  simp only [ofFields, checkFields, h]
  cases isOptional <;> rfl

end

lemma checkFields_of_forall {fields : Mapping}
    (h : ∀ key spec, (key, spec) ∈ fields → checkFields (ofFields [(key, spec)]) path entries = .ok ()) :
    checkFields (ofFields fields) path entries = .ok () := by
  induction fields with
  | nil => rfl
  | cons field rest ih =>
    have hrest := ih fun key spec hm => h key spec (List.mem_cons_of_mem _ hm)
    rw [← List.singleton_append, ofFields_append, checkFields_append,
      h field.1 field.2 List.mem_cons_self]
    exact hrest

end

lemma check_listOf (element path : String) (items : List Node) :
    check (.ofNode (.string (listOf element))) path (.sequence items) =
      checkItems (check (.ofNode (.string element))) path 0 items := by
  rw [ofNode_listOf, check]

lemma check_mapping (fields entries : Mapping) (path : String) :
    check (.ofNode (.mapping fields)) path (.mapping entries) =
      checkFields (ofFields fields) path entries := by
  rw [ofNode, check]

lemma check_of_conforms {t value : Node} (h : Conforms t value) (path : String) :
    check (.ofNode t) path value = .ok () := by
  induction h generalizing path with
  | plain hname h => exact check_of_plain path _ hname h
  | list h ih =>
    rw [check_listOf]
    exact checkItems_of_forall path ih 0
  | @object fields entries hpresent h ih =>
    rw [check_mapping]
    refine checkFields_of_forall path entries fun key spec hm => ?_
    obtain ⟨name, isOptional, hname⟩ := exists_describes key
    cases hvalue : Fields.get? entries name with
    | some value =>
      rw [checkFields_present path entries hname spec hvalue]
      exact ih key spec name isOptional value hm hname hvalue _
    | none =>
      rw [checkFields_absent path entries hname spec hvalue]
      cases isOptional with
      | true => rfl
      | false => exact absurd hvalue (hpresent key spec name hm hname)
  | unknown hplain hlist => exact check_unknown path _ hplain hlist
  | @other spec value hstring hobject =>
    cases spec with
    | string => exact absurd rfl hstring
    | mapping => exact absurd rfl hobject
    | _ => rfl

lemma check_behind {before after entries : Mapping} {key : String} {spec : Node}
    (hbefore : Conforms (.mapping before) (.mapping entries)) (path : String) :
    check (.ofNode (.mapping (before ++ (key, spec) :: after))) path (.mapping entries) =
      checkFields (ofFields [(key, spec)]) path entries >>=
        fun _ => checkFields (ofFields after) path entries := by
  have hfields := check_of_conforms hbefore path
  rw [check_mapping] at hfields ⊢
  rw [← List.singleton_append, ofFields_append, ofFields_append, checkFields_append,
    checkFields_append, hfields]
  rfl

lemma check_of_firstFlaw {t value : Node} {steps : List Step} {flaw : Flaw}
    (h : FirstFlaw t value steps flaw) (path : String) :
    check (.ofNode t) path value = .error (flaw.at (pathTo path steps)) := by
  -- All that stands before a flaw conforms, so the check passes it and arrives at the flaw.
  induction h generalizing path with
  | plain hname h => exact check_of_not_plain path _ hname h
  | @noList element value h =>
    rw [ofNode_listOf]
    cases value with
    | sequence => exact absurd rfl h
    | _ => rfl
  | @item element before after item steps flaw hbefore h ih =>
    have hitems := check_of_conforms hbefore path
    rw [check_listOf] at hitems ⊢
    rw [checkItems_append, hitems]
    change (checkItems _ path (0 + before.length) (item :: after)) = _
    rw [checkItems, Nat.zero_add, itemPath, ih]
    rfl
  | @noObject fields value h =>
    rw [ofNode]
    cases value with
    | mapping => exact absurd rfl h
    | _ => rfl
  | @missing before after entries key name spec hbefore hname h =>
    rw [check_behind hbefore, checkFields_absent path entries hname spec h]
    rfl
  | @field before after entries key name isOptional spec value steps flaw hbefore hname hvalue h ih =>
    rw [check_behind hbefore, checkFields_present path entries hname spec hvalue, ih]
    rfl

def Judged (t value : Node) : Prop := Conforms t value ∨ ∃ steps flaw, FirstFlaw t value steps flaw

lemma exists_first {α : Type} {p : α → Prop} {items : List α} (h : ¬ ∀ item ∈ items, p item) :
    ∃ before item after, items = before ++ item :: after ∧ (∀ other ∈ before, p other) ∧
      ¬ p item := by
  classical
  obtain ⟨item, hm, hp⟩ : ∃ item ∈ items, ¬ p item := by simpa using h
  have hfound : (items.find? fun item => ¬ p item).isSome :=
    List.find?_isSome.mpr ⟨item, hm, by simpa using hp⟩
  obtain ⟨first, hfirst⟩ := Option.isSome_iff_exists.mp hfound
  obtain ⟨hnot, before, after, rfl, hbefore⟩ := List.find?_eq_some_iff_append.mp hfirst
  exact ⟨before, first, after, rfl, by simpa using hbefore, by simpa using hnot⟩

lemma judged_items {element : String} (h : ∀ item, Judged (.string element) item)
    (items : List Node) : Judged (.string (listOf element)) (.sequence items) := by
  by_cases hitems : ∀ item ∈ items, Conforms (.string element) item
  · exact .inl (.list hitems)
  · obtain ⟨before, item, after, rfl, hbefore, hitem⟩ := exists_first hitems
    obtain ⟨steps, flaw, hflaw⟩ := (h item).resolve_left hitem
    exact .inr ⟨_, _, .item (.list hbefore) hflaw⟩

lemma judged_name (name : String) (value : Node) : Judged (.string name) value := by
  induction hlength : name.length using Nat.strong_induction_on generalizing name value with
  | _ n ih =>
    subst hlength
    by_cases hplain : ∃ called p, PlainType name called p
    · obtain ⟨called, p, hname⟩ := hplain
      by_cases h : p value
      · exact .inl (.plain hname h)
      · exact .inr ⟨_, _, .plain hname h⟩
    by_cases hlist : ∃ element, name = listOf element
    -- The element type of a list has a shorter name than the type of the list.
    · obtain ⟨element, rfl⟩ := hlist
      have hshorter : element.length < (listOf element).length := by
        have hopen : "list<".length = 5 := by decide
        rw [listOf, String.length_append, String.length_append]
        omega
      cases value with
      | sequence items => exact judged_items (fun item => ih _ hshorter element item rfl) items
      | _ => exact .inr ⟨_, _, .noList (by simp [Node.kind])⟩
    · refine .inl (.unknown (fun called p h => hplain ⟨called, p, h⟩) fun element h => ?_)
      exact hlist ⟨element, h⟩

def FieldConforms (entries : Mapping) (field : String × Node) : Prop :=
  ∀ name isOptional, Describes field.1 name isOptional →
    (isOptional = false → Fields.get? entries name ≠ none) ∧
    ∀ value, Fields.get? entries name = some value → Conforms field.2 value

lemma conforms_mapping {fields entries : Mapping} (h : ∀ field ∈ fields, FieldConforms entries field) :
    Conforms (.mapping fields) (.mapping entries) :=
  .object (fun key spec name hm hname => (h (key, spec) hm name false hname).1 rfl)
    fun key spec name isOptional value hm hname hvalue =>
      (h (key, spec) hm name isOptional hname).2 value hvalue

lemma judged_entries {fields : Mapping} (h : ∀ field ∈ fields, ∀ value, Judged field.2 value)
    (entries : Mapping) : Judged (.mapping fields) (.mapping entries) := by
  by_cases hfields : ∀ field ∈ fields, FieldConforms entries field
  · exact .inl (conforms_mapping hfields)
  · obtain ⟨before, ⟨key, spec⟩, after, rfl, hbefore, hfield⟩ := exists_first hfields
    have hbefore := conforms_mapping hbefore
    have hjudged := h (key, spec) (by simp)
    simp only [FieldConforms, not_forall, not_and_or] at hfield
    obtain ⟨name, isOptional, hname, ⟨hoptional, hmissing⟩ | ⟨value, hvalue, hnot⟩⟩ := hfield
    · subst hoptional
      exact .inr ⟨_, _, .missing hbefore hname (not_not.mp hmissing)⟩
    · obtain ⟨steps, flaw, hflaw⟩ := (hjudged value).resolve_left hnot
      exact .inr ⟨_, _, .field hbefore hname hvalue hflaw⟩

mutual

lemma judged : (t value : Node) → Judged t value
  | .string name, value => judged_name name value
  | .mapping fields, value => by
    cases value with
    | mapping entries => exact judged_entries (judged_fields fields) entries
    | _ => exact .inr ⟨_, _, .noObject (by simp [Node.kind])⟩
  | .null, _ | .bool _, _ | .int _, _ | .float _, _ | .sequence _, _ | .expression _, _
  | .tag _ _, _ | .conditional _ _, _ =>
    .inl (.other (by simp [Node.kind]) (by simp [Node.kind]))

lemma judged_fields : (fields : List (String × Node)) → ∀ field ∈ fields, ∀ value,
    Judged field.2 value
  | [], _, hm, _ => absurd hm List.not_mem_nil
  | (_, spec) :: rest, _, hm, value => by
    obtain rfl | hm := List.mem_cons.mp hm
    · exact judged spec value
    · exact judged_fields rest _ hm value

end

/-- A value passes exactly if it conforms, and otherwise its first flaw is reported, at the path that
its fields and items lead to. -/
theorem check_ofNode (t value : Node) (path : String) :
    (check (.ofNode t) path value = .ok () ↔ Conforms t value) ∧
      ∀ mismatch, check (.ofNode t) path value = .error mismatch ↔
        ∃ steps flaw, FirstFlaw t value steps flaw ∧ mismatch = flaw.at (pathTo path steps) := by
  obtain h | ⟨steps, flaw, h⟩ := judged t value
  · have hcheck := check_of_conforms h path
    refine ⟨iff_of_true hcheck h, fun mismatch => iff_of_false (by simp [hcheck]) ?_⟩
    rintro ⟨steps, flaw, hflaw, -⟩
    simp [check_of_firstFlaw hflaw] at hcheck
  · have hcheck := check_of_firstFlaw h path
    refine ⟨iff_of_false (by simp [hcheck]) fun hconforms => ?_, fun mismatch => ?_⟩
    · simp [check_of_conforms hconforms] at hcheck
    · constructor
      · intro herror
        exact ⟨steps, flaw, h, Except.error.inj (herror.symm.trans hcheck)⟩
      · rintro ⟨steps', flaw', hflaw, rfl⟩
        exact check_of_firstFlaw hflaw path

example : check (.ofNode (.mapping [("tls?", .string "bool"), ("ports", .string "list<list<int>>")]))
    "app" (.mapping [("ports", .sequence [.sequence [.int 80], .sequence [.string "x"]])]) =
      .error (.type "app.ports[1][0]" "int" .string) := by
  cbv

end LayeredConfig.Schema
