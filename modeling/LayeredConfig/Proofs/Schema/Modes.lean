import LayeredConfig.Proofs.Ascription.Recorded
import LayeredConfig.Proofs.Node.Bare
import LayeredConfig.Proofs.Node.Merging
import LayeredConfig.Schema.Validation
import Mathlib

/-! The two ways to validate a document: by the annotations that its keys carry, and by the records
of these annotations once the keys have lost them. -/

namespace LayeredConfig.Schema

open Ascription Node

structure AnnotatedOnTop (fields : Mapping) : Prop where
  top : ∀ entry ∈ annotated (.mapping fields), entry.1.length = 1
  undotted : ∀ key ∈ Fields.keys fields, read? key ≠ none → '.' ∉ (strip key).toList
  distinct : ((Fields.keys fields).map strip).Nodup

instance (fields : Mapping) : Decidable (AnnotatedOnTop fields) :=
  decidable_of_iff ((∀ entry ∈ annotated (.mapping fields), entry.1.length = 1) ∧
      (∀ key ∈ Fields.keys fields, read? key ≠ none → '.' ∉ (strip key).toList) ∧
      ((Fields.keys fields).map strip).Nodup)
    ⟨fun ⟨htop, hundotted, hdistinct⟩ => ⟨htop, hundotted, hdistinct⟩,
      fun h => ⟨h.top, h.undotted, h.distinct⟩⟩

def withoutUnset (fields : Mapping) : Mapping :=
  fields.filter fun field => (read? field.1).isNone || !field.2.isNull

def records (fields : Mapping) : Fields String :=
  fields.filterMap fun field => (read? field.1).map fun a => (a.base, a.typeName)

lemma strip_of_read? {key : String} {a : Ascription} (h : read? key = some a) :
    strip key = a.base := by
  simp [strip, h]

section

variable {key : String} (value : Node) (rest : Mapping)

lemma records_cons_of_unannotated (h : read? key = none) :
    records ((key, value) :: rest) = records rest := by
  simp [records, h]

lemma records_cons {a : Ascription} (h : read? key = some a) :
    records ((key, value) :: rest) = (a.base, a.typeName) :: records rest := by
  simp [records, h]

end

lemma annotated_eq_nil {fields : Mapping}
    (h : ∀ entry ∈ annotated (.mapping fields), entry.1.length = 1) :
    ∀ field ∈ fields, annotated field.2 = [] := by
  rintro ⟨key, value⟩ hm
  refine List.eq_nil_iff_forall_not_mem.mpr fun ⟨below, typeName⟩ hbelow => ?_
  have hlonger := h (key :: below, typeName)
    (mem_annotatedFields.mpr ⟨key, value, hm, .inr ⟨below, rfl, hbelow⟩⟩)
  have hnil : below = [] := by simpa using hlonger
  exact ne_nil_of_mem_annotated hbelow hnil

lemma annotatedFields_eq_records {fields : Mapping} (h : ∀ field ∈ fields, annotated field.2 = []) :
    (annotatedFields fields).map (recordBelow "") = records fields := by
  induction fields with
  | nil => rfl
  | cons field rest ih =>
    obtain ⟨key, value⟩ := field
    obtain ⟨hvalue, hrest⟩ := List.forall_mem_cons.mp h
    rw [annotatedFields, hvalue, List.map_nil, List.append_nil, List.map_append, ih hrest]
    cases hkey : read? key with
    | none =>
      rw [records_cons_of_unannotated value rest hkey]
      rfl
    | some a =>
      have hrecord : recordBelow "" ([key], a.typeName) = (a.base, a.typeName) :=
        congrArg (·, a.typeName) (strip_of_read? hkey)
      rw [records_cons value rest hkey, ← hrecord]
      rfl

lemma keys_records_sublist (fields : Mapping) :
    (Fields.keys (records fields)).Sublist ((Fields.keys fields).map strip) := by
  induction fields with
  | nil => exact .slnil
  | cons field rest ih =>
    obtain ⟨key, value⟩ := field
    cases hkey : read? key with
    | none =>
      rw [records_cons_of_unannotated value rest hkey]
      exact ih.cons _
    | some a =>
      rw [records_cons value rest hkey]
      change (a.base :: _).Sublist (strip key :: _)
      rw [strip_of_read? hkey]
      exact ih.cons_cons _

lemma extract_eq_records {fields : Mapping} (h : AnnotatedOnTop fields) :
    extract (.mapping fields) = records fields := by
  have hnodup := h.distinct.sublist (keys_records_sublist fields)
  rw [extract_eq, annotated, annotatedFields_eq_records (annotated_eq_nil h.top)]
  exact Fields.insertAll_of_nodup hnodup

mutual

lemma bare_of_unannotated : (n : Node) → annotated n = [] → n.bare = n
  | .mapping fields, h => congrArg Node.mapping (bareFields_of_unannotated fields h)
  | .null, _ | .bool _, _ | .int _, _ | .float _, _ | .string _, _ | .sequence _, _
  | .expression _, _ | .tag _ _, _ | .conditional _ _, _ => rfl

lemma bareFields_of_unannotated : (fields : List (String × Node)) → annotatedFields fields = [] →
    bareFields fields = fields
  | [], _ => rfl
  | (key, value) :: rest, h => by
    obtain ⟨hfield, hrest⟩ := List.append_eq_nil_iff.mp h
    obtain ⟨hkey, hvalue⟩ := List.append_eq_nil_iff.mp hfield
    have hkey : read? key = none := by simpa using hkey
    rw [bareFields, strip_of_unannotated hkey, bareFields_of_unannotated rest hrest,
      bare_of_unannotated value (List.map_eq_nil_iff.mp hvalue)]

end

lemma getPath?_bare {fields : Mapping} (h : AnnotatedOnTop fields) {key : String} {value : Node}
    (hm : (key, value) ∈ fields) {a : Ascription} (hkey : read? key = some a) :
    (Node.mapping fields).bare.getPath? a.base = some value := by
  have hundotted := h.undotted key (List.mem_map_of_mem hm) (by simp [hkey])
  have hfield : (strip key, value.bare) ∈ bareFields fields := by
    rw [bareFields_eq, Fields.mapFields]
    exact List.mem_map.mpr ⟨(key, value), hm, rfl⟩
  have hnodup : (Fields.keys (bareFields fields)).Nodup := by
    rw [bareFields_eq, Fields.keys, Fields.mapFields, List.map_map]
    simpa [Fields.keys, Function.comp_def] using h.distinct
  have hget := Fields.get?_of_mem hnodup hfield
  rw [bare_of_unannotated value (annotated_eq_nil h.top _ hm)] at hget
  rw [← strip_of_read? hkey, getPath?, pathKeys_of_undotted hundotted, bare, descend, Node.get?, hget]
  rfl

lemma checkSuffix_of_unannotated (schema : Mapping) {key : String} (h : read? key = none)
    (value : Node) : checkSuffix schema key value = .ok () := by
  rw [checkSuffix, h]

lemma checkPath_eq_checkSuffix {doc : Node} (schema : Mapping) {key : String} {a : Ascription}
    (hkey : read? key = some a) {value : Node} (hvalue : doc.getPath? a.base = some value)
    (hnull : value.isNull = false) :
    checkPath doc schema a.base a.typeName = checkSuffix schema key value := by
  rw [checkPath, checkSuffix, hkey, hvalue]
  dsimp only
  cases Fields.get? schema a.typeName with
  | none => rfl
  | some spec =>
    cases value with
    | null => cases hnull
    | _ => rfl

lemma checkPath_null {doc : Node} (schema : Mapping) {path : String} (typeName : String)
    (h : doc.getPath? path = some .null) : checkPath doc schema path typeName = .ok () := by
  rw [checkPath, h]
  cases Fields.get? schema typeName <;> rfl

lemma checkPaths_records {doc : Node} (schema : Mapping) {fields : Mapping}
    (h : ∀ key value, (key, value) ∈ fields → ∀ a, read? key = some a →
      doc.getPath? a.base = some value) :
    checkPaths doc schema (records fields) = checkSuffixes schema (withoutUnset fields) := by
  induction fields with
  | nil => rfl
  | cons field rest ih =>
    obtain ⟨key, value⟩ := field
    have hrest := ih fun key value hm => h key value (List.mem_cons_of_mem _ hm)
    cases hkey : read? key with
    | none =>
      have hkept : withoutUnset ((key, value) :: rest) = (key, value) :: withoutUnset rest := by
        simp [withoutUnset, hkey]
      rw [records_cons_of_unannotated value rest hkey, hkept, hrest, checkSuffixes,
        checkSuffix_of_unannotated schema hkey]
      rfl
    | some a =>
      have hvalue := h key value List.mem_cons_self a hkey
      rw [records_cons value rest hkey, checkPaths, hrest]
      cases hnull : value.isNull with
      | true =>
        have hdropped : withoutUnset ((key, value) :: rest) = withoutUnset rest := by
          simp [withoutUnset, hkey, hnull]
        rw [checkPath_null schema _ (eq_null_of_isNull hnull ▸ hvalue), hdropped]
        rfl
      | false =>
        have hkept : withoutUnset ((key, value) :: rest) = (key, value) :: withoutUnset rest := by
          simp [withoutUnset, hnull]
        rw [checkPath_eq_checkSuffix schema hkey hvalue hnull, hkept]
        rfl

lemma validate_eq_checkPaths (doc : Node) {schema : Mapping} {annotations : Fields String}
    (hschema : schema ≠ []) (hannotations : annotations ≠ []) :
    validate doc schema annotations = checkPaths doc schema annotations := by
  simp [validate, mode, hschema, hannotations]

lemma validate_eq_checkSuffixes (fields : Mapping) {schema : Mapping} (hschema : schema ≠ []) :
    validate (.mapping fields) schema [] = checkSuffixes schema fields := by
  simp [validate, mode, hschema]

lemma validate_nil (doc : Node) (annotations : Fields String) :
    validate doc [] annotations = .ok () := rfl

lemma withoutUnset_eq_self {fields : Mapping}
    (h : ∀ field ∈ fields, read? field.1 ≠ none → field.2 ≠ .null) :
    withoutUnset fields = fields := by
  refine List.filter_eq_self.mpr ?_
  rintro ⟨key, value⟩ hm
  cases hkey : read? key with
  | none => simp
  | some a =>
    have hvalue := h (key, value) hm (by simp [hkey])
    cases value with
    | null => exact absurd rfl hvalue
    | _ => simp [isNull]

/-- Whether by key or by recorded path, the same values are checked in the same order, except that
only by key are those checked that are null. -/
theorem validate_bare {fields : Mapping} (h : AnnotatedOnTop fields) (schema : Mapping) :
    validate (Node.mapping fields).bare schema (extract (.mapping fields)) =
        validate (.mapping (withoutUnset fields)) schema [] ∧
      ((∀ field ∈ fields, read? field.1 ≠ none → field.2 ≠ .null) →
        validate (Node.mapping fields).bare schema (extract (.mapping fields)) =
          validate (.mapping fields) schema []) := by
  have hsame : validate (Node.mapping fields).bare schema (extract (.mapping fields)) =
      validate (.mapping (withoutUnset fields)) schema [] := by
    by_cases hschema : schema = []
    · rw [hschema, validate_nil, validate_nil]
    rw [extract_eq_records h, validate_eq_checkSuffixes _ hschema]
    by_cases hrecords : records fields = []
    · -- Without a record the keys are checked in either case, and none of them is annotated.
      have hannotated : annotatedFields fields = [] := by
        rw [← annotatedFields_eq_records (annotated_eq_nil h.top)] at hrecords
        exact List.map_eq_nil_iff.mp hrecords
      have hset := withoutUnset_eq_self fun field hm hkey =>
        absurd (Option.map_eq_none_iff.mp (List.filterMap_eq_nil_iff.mp hrecords _ hm)) hkey
      rw [hrecords, bare, bareFields_of_unannotated fields hannotated,
        validate_eq_checkSuffixes _ hschema, hset]
    · rw [validate_eq_checkPaths _ hschema hrecords]
      exact checkPaths_records schema fun key value hm a hkey => getPath?_bare h hm hkey
  refine ⟨hsame, fun hset => ?_⟩
  rw [hsame, withoutUnset_eq_self hset]

def textSchema : Mapping := [("T", .string "string")]

def unsetPort : Mapping := [("port<T>", .null), ("host<T>", .int 5), ("path", .string "/")]

def boundPort : Mapping := [("port<T>", .string "80"), ("host<T>", .int 5)]

theorem validate_bare_ports :
    AnnotatedOnTop unsetPort ∧
      validate (Node.mapping unsetPort).bare textSchema (extract (.mapping unsetPort)) =
        .error (.type "host" "string" .int) ∧
      AnnotatedOnTop boundPort ∧
      (∀ field ∈ boundPort, read? field.1 ≠ none → field.2 ≠ .null) ∧
      validate (Node.mapping boundPort).bare textSchema (extract (.mapping boundPort)) =
        validate (.mapping boundPort) textSchema [] := by
  have hunset : AnnotatedOnTop unsetPort := by decide +kernel
  have hbound : AnnotatedOnTop boundPort := by decide +kernel
  have hset : ∀ field ∈ boundPort, read? field.1 ≠ none → field.2 ≠ .null := by
    simp [boundPort]
  refine ⟨hunset, (validate_bare hunset textSchema).1.trans ?_, hbound, hset,
    (validate_bare hbound textSchema).2 hset⟩
  cbv

theorem validate_null_differs :
    AnnotatedOnTop [("port<T>", .null)] ∧ strip "port<T>" = "port" ∧
      validate (.mapping [("port<T>", .null)]) textSchema [] = .error (.type "port" "string" .null) ∧
      validate (Node.mapping [("port<T>", .null)]).bare textSchema
        (extract (.mapping [("port<T>", .null)])) = .ok () := by
  refine ⟨by decide +kernel, by decide +kernel, ?_, ?_⟩
  · cbv
  · cbv

end LayeredConfig.Schema
