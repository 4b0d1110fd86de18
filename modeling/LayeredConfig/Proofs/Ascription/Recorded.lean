import LayeredConfig.Node.View
import LayeredConfig.Proofs.Ascription.Shape
import LayeredConfig.Proofs.Fields

/-! The paths under which annotated values are recorded, and when they lead back to the values. -/

namespace LayeredConfig

open Text

namespace Ascription

mutual

def annotated : Node → List (List String × String)
  | .mapping fields => annotatedFields fields
  | _ => []

def annotatedFields : List (String × Node) → List (List String × String)
  | [] => []
  | (key, value) :: rest =>
    ((read? key).map fun a => ([key], a.typeName)).toList ++
      (annotated value).map (fun (keys, typeName) => (key :: keys, typeName)) ++
      annotatedFields rest

end

lemma mem_annotatedFields {fields : List (String × Node)} {keys : List String} {typeName : String} :
    (keys, typeName) ∈ annotatedFields fields ↔ ∃ key value, (key, value) ∈ fields ∧
      ((keys = [key] ∧ ∃ a, read? key = some a ∧ a.typeName = typeName) ∨
        ∃ below, keys = key :: below ∧ (below, typeName) ∈ annotated value) := by
  induction fields with
  | nil => simp [annotatedFields]
  | cons field rest ih =>
    obtain ⟨key, value⟩ := field
    simp only [annotatedFields, List.mem_append, ih, List.mem_cons, Prod.mk.injEq,
      Option.mem_toList, Option.map_eq_some_iff, List.mem_map, Prod.exists]
    constructor
    · rintro ((⟨a, ha, rfl, rfl⟩ | ⟨below, t, hbelow, rfl, rfl⟩) | ⟨k, v, hmem, h⟩)
      · exact ⟨key, value, .inl ⟨rfl, rfl⟩, .inl ⟨rfl, a, ha, rfl⟩⟩
      · exact ⟨key, value, .inl ⟨rfl, rfl⟩, .inr ⟨below, rfl, hbelow⟩⟩
      · exact ⟨k, v, .inr hmem, h⟩
    · rintro ⟨k, v, ⟨rfl, rfl⟩ | hmem, h⟩
      · obtain ⟨rfl, a, ha, rfl⟩ | ⟨below, rfl, hbelow⟩ := h
        · exact .inl (.inl ⟨a, ha, rfl, rfl⟩)
        · exact .inl (.inr ⟨below, typeName, hbelow, rfl, rfl⟩)
      · exact .inr ⟨k, v, hmem, h⟩

lemma ne_nil_of_mem_annotated {doc : Node} {keys : List String} {typeName : String}
    (h : (keys, typeName) ∈ annotated doc) : keys ≠ [] := by
  cases doc with
  | mapping fields =>
    obtain ⟨key, value, -, ⟨rfl, -⟩ | ⟨below, rfl, -⟩⟩ := mem_annotatedFields.mp h <;> simp
  | _ => cases h

def pathBelow (path : String) (keys : List String) : String :=
  keys.foldl (fun path key => joinPath path (strip key)) path

abbrev recordedPath (keys : List String) : String := pathBelow "" keys

def recordBelow (path : String) : List String × String → String × String
  | (keys, typeName) => (pathBelow path keys, typeName)

mutual

lemma collect_eq (path : String) (found : Fields String) : (n : Node) →
    collect path found n = Fields.insertAll found ((annotated n).map (recordBelow path))
  | .mapping fields => by
    rw [collect, annotated]
    exact collectFields_eq path found fields
  | .null | .bool _ | .int _ | .float _ | .string _ | .sequence _ | .expression _ | .tag _ _
  | .conditional _ _ => rfl

lemma collectFields_eq (path : String) (found : Fields String) : (fields : List (String × Node)) →
    collectFields path found fields =
      Fields.insertAll found ((annotatedFields fields).map (recordBelow path))
  | [] => rfl
  | (key, value) :: rest => by
    have hbelow : (annotated value).map (recordBelow path ∘ fun (keys, t) => (key :: keys, t)) =
        (annotated value).map (recordBelow (joinPath path (strip key))) := rfl
    rw [collectFields, collectFields_eq, collect_eq, annotatedFields, List.map_append,
      List.map_append, List.map_map, hbelow]
    cases hkey : read? key with
    | none => simp [Fields.insertAll, List.foldl_append]
    | some a => simp [Fields.insertAll, List.foldl_append, recordBelow, pathBelow]

end

lemma extract_eq (doc : Node) :
    extract doc = Fields.insertAll [] ((annotated doc).map (recordBelow "")) :=
  collect_eq "" [] doc

lemma exists_get?_extract {doc : Node} {keys : List String} {typeName : String}
    (h : (keys, typeName) ∈ annotated doc) :
    ∃ recorded, Fields.get? (extract doc) (recordedPath keys) = some recorded := by
  rw [extract_eq]
  refine Fields.exists_get?_insertAll (.inl ?_)
  rw [Fields.keys, List.map_map]
  exact List.mem_map_of_mem h

lemma mem_annotated_of_mem_extract {doc : Node} {path typeName : String}
    (h : (path, typeName) ∈ extract doc) :
    ∃ keys, (keys, typeName) ∈ annotated doc ∧ recordedPath keys = path := by
  rw [extract_eq] at h
  obtain ⟨⟨keys, t⟩, hmem, heq⟩ := List.mem_map.mp
    ((Fields.mem_insertAll h).resolve_left List.not_mem_nil)
  cases heq
  exact ⟨keys, hmem, rfl⟩

def finalName (key : String) : String := strip (strip key)

structure Findable (keys : List String) : Prop where
  undotted : ∀ key ∈ keys, '.' ∉ (strip key).toList
  single : ∀ key ∈ keys, finalName key = strip key
  named : keys.length = 1 ∨ ∀ key ∈ keys.head?, strip key ≠ ""

lemma undotted_of_strip {key : String} (h : '.' ∉ (strip key).toList) : '.' ∉ key.toList := by
  obtain ⟨-, heq⟩ | ⟨base, typeName, hkey, hname, heq⟩ := strip_cases key
  · rwa [heq] at h
  · rw [heq] at h
    split at h
    · exact h
    · rw [String.toList_ofList] at h
      have htype : '.' ∉ typeName := by
        intro hm
        have := List.all_eq_true.mp (Bool.and_eq_true_iff.mp hname).2 _ hm
        simp [isNameChar] at this
      simp [hkey, bracketed, h, htype]

lemma joinPath_ne_empty {path : String} (h : path ≠ "") (key : String) :
    joinPath path key ≠ "" := by
  simp [joinPath, h]

lemma pathKeys_joinPath {path : String} (h : path ≠ "") (key : String) :
    Node.pathKeys (joinPath path key) = Node.pathKeys path ++ Node.pathKeys key := by
  have hjoin : (joinPath path key).toList = path.toList ++ '.' :: key.toList := by
    simp [joinPath, h]
  rw [Node.pathKeys, hjoin, pieces_append_cons, List.map_append]
  rfl

lemma pathKeys_pathBelow {path : String} (h : path ≠ "") (keys : List String) :
    Node.pathKeys (pathBelow path keys) =
      Node.pathKeys path ++ keys.flatMap fun key => Node.pathKeys (strip key) := by
  induction keys generalizing path with
  | nil => simp [pathBelow]
  | cons key rest ih =>
    rw [pathBelow, List.foldl_cons]
    change Node.pathKeys (pathBelow (joinPath path (strip key)) rest) = _
    rw [ih (joinPath_ne_empty h _), pathKeys_joinPath h]
    simp

lemma pathKeys_of_undotted {name : String} (h : '.' ∉ name.toList) : Node.pathKeys name = [name] := by
  simp [Node.pathKeys, pieces_of_not_mem h]

lemma undotted_of_mem_pathKeys {path name : String} (h : name ∈ Node.pathKeys path) :
    '.' ∉ name.toList := by
  obtain ⟨piece, hpiece, rfl⟩ := List.mem_map.mp h
  rw [String.toList_ofList]
  exact not_mem_of_mem_pieces hpiece

section

variable {keys : List String} (h : ∀ key ∈ keys, '.' ∉ (strip key).toList)
include h

lemma flatMap_pathKeys_of_undotted :
    (keys.flatMap fun key => Node.pathKeys (strip key)) = keys.map strip := by
  induction keys with
  | nil => rfl
  | cons key rest ih =>
    have hrest := ih fun key hm => h key (List.mem_cons_of_mem _ hm)
    simp [hrest, pathKeys_of_undotted (h key List.mem_cons_self)]

lemma length_pathKeys_recordedPath_le :
    (Node.pathKeys (recordedPath keys)).length ≤ max 1 keys.length := by
  induction keys with
  | nil => decide
  | cons key rest ih =>
    have hrest := ih fun key hm => h key (List.mem_cons_of_mem _ hm)
    have hpath : recordedPath (key :: rest) = pathBelow (strip key) rest := rfl
    rw [hpath]
    by_cases hkey : strip key = ""
    · rw [hkey]
      have hlonger : max 1 rest.length ≤ max 1 (key :: rest).length := by
        simp only [List.length_cons]
        omega
      exact le_trans hrest hlonger
    · have hundotted : ∀ key ∈ rest, '.' ∉ (strip key).toList :=
        fun key hm => h key (List.mem_cons_of_mem _ hm)
      rw [pathKeys_pathBelow hkey, flatMap_pathKeys_of_undotted hundotted,
        pathKeys_of_undotted (h key List.mem_cons_self)]
      simp

lemma pathKeys_recordedPath (hnamed : keys.length = 1 ∨ ∀ key ∈ keys.head?, strip key ≠ "")
    (hne : keys ≠ []) : Node.pathKeys (recordedPath keys) = keys.map strip := by
  obtain ⟨key, rest, rfl⟩ := List.exists_cons_of_ne_nil hne
  have hundotted : ∀ key ∈ rest, '.' ∉ (strip key).toList :=
    fun key hm => h key (List.mem_cons_of_mem _ hm)
  have hpath : recordedPath (key :: rest) = pathBelow (strip key) rest := rfl
  have hkey := pathKeys_of_undotted (h key List.mem_cons_self)
  rw [hpath]
  obtain hone | hfirst := hnamed
  · obtain rfl : rest = [] := by simpa using hone
    exact hkey
  · rw [pathKeys_pathBelow (hfirst key rfl), flatMap_pathKeys_of_undotted hundotted, hkey]
    rfl

end

lemma undotted_of_pathKeys_eq {path : String} {keys : List String}
    (h : Node.pathKeys path = keys.map finalName) : ∀ key ∈ keys, '.' ∉ (strip key).toList := by
  intro key hm
  have hfinal : finalName key ∈ Node.pathKeys path := h ▸ List.mem_map_of_mem hm
  exact undotted_of_strip (undotted_of_mem_pathKeys hfinal)

lemma eq_of_prefix_of_pathKeys_eq {below keys : List String} (hstart : below <+: keys)
    (hne : below ≠ []) (h : Node.pathKeys (recordedPath below) = keys.map finalName) :
    below = keys := by
  have hundotted : ∀ key ∈ below, '.' ∉ (strip key).toList :=
    fun key hm => undotted_of_pathKeys_eq h key (hstart.subset hm)
  have hle := length_pathKeys_recordedPath_le hundotted
  have hpos : 0 < below.length := List.length_pos_iff.mpr hne
  rw [h, List.length_map] at hle
  exact hstart.eq_of_length_le (by omega)

theorem pathKeys_recordedPath_iff {keys : List String} (hne : keys ≠ []) :
    Node.pathKeys (recordedPath keys) = keys.map finalName ↔ Findable keys := by
  constructor
  · intro h
    have hundotted := undotted_of_pathKeys_eq h
    have hnamed : keys.length = 1 ∨ ∀ key ∈ keys.head?, strip key ≠ "" := by
      obtain ⟨key, rest, rfl⟩ := List.exists_cons_of_ne_nil hne
      by_cases hkey : strip key = ""
      · have hpath : recordedPath (key :: rest) = recordedPath rest := by
          change pathBelow (strip key) rest = _
          rw [hkey]
        have hle := length_pathKeys_recordedPath_le fun key hm =>
          hundotted key (List.mem_cons_of_mem _ hm)
        rw [← hpath, h] at hle
        left
        simp only [List.map_cons, List.length_cons, List.length_map] at hle ⊢
        omega
      · exact .inr fun other hother => Option.some.inj hother ▸ hkey
    have hsame : keys.map strip = keys.map finalName :=
      (pathKeys_recordedPath hundotted hnamed hne).symm.trans h
    exact ⟨hundotted, fun key hm => (List.map_inj_left.mp hsame key hm).symm, hnamed⟩
  · intro h
    rw [pathKeys_recordedPath h.undotted h.named hne]
    exact List.map_congr_left fun key hm => (h.single key hm).symm

end Ascription

end LayeredConfig
