import LayeredConfig.Proofs.Ascription.Recorded
import LayeredConfig.Proofs.Node.Within

namespace LayeredConfig.Ascription

open Node

structure RecordableHere (fields : Mapping) : Prop where
  distinct : ((Fields.keys fields).map strip).Nodup
  single : ∀ key ∈ Fields.keys fields, read? (strip key) = none
  filled : ∀ key ∈ Fields.keys fields, strip key ≠ ""
  undotted : ∀ key ∈ Fields.keys fields, '.' ∉ (strip key).toList

instance (fields : Mapping) : Decidable (RecordableHere fields) :=
  decidable_of_iff (((Fields.keys fields).map strip).Nodup ∧
      (∀ key ∈ Fields.keys fields, read? (strip key) = none) ∧
      (∀ key ∈ Fields.keys fields, strip key ≠ "") ∧
      ∀ key ∈ Fields.keys fields, '.' ∉ (strip key).toList)
    ⟨fun ⟨hdistinct, hsingle, hfilled, hundotted⟩ => ⟨hdistinct, hsingle, hfilled, hundotted⟩,
      fun h => ⟨h.distinct, h.single, h.filled, h.undotted⟩⟩

def Recordable (doc : Node) : Prop :=
  ∀ chain fields, doc.descend chain = some (.mapping fields) → RecordableHere fields

lemma Recordable.here {fields : Mapping} (h : Recordable (.mapping fields)) :
    RecordableHere fields :=
  h [] fields rfl

lemma descend_cons {fields : Mapping} {key : String} {rest : List String} {n : Node} :
    (Node.mapping fields).descend (key :: rest) = some n ↔
      ∃ value, Fields.get? fields key = some value ∧ value.descend rest = some n := by
  rw [descend, Node.get?, Option.bind_eq_some_iff]

lemma Recordable.below {fields : Mapping} (h : Recordable (.mapping fields)) {key : String}
    {value : Node} (hget : Fields.get? fields key = some value) : Recordable value :=
  fun chain below hbelow => h (key :: chain) below (descend_cons.mpr ⟨value, hget, hbelow⟩)

lemma RecordableHere.get?_of_mem {fields : Mapping} (h : RecordableHere fields) {key : String}
    {value : Node} (hm : (key, value) ∈ fields) : Fields.get? fields key = some value :=
  Fields.get?_of_mem (List.Nodup.of_map _ h.distinct) hm

lemma Recordable.of_mem {fields : Mapping} (h : Recordable (.mapping fields)) {key : String}
    {value : Node} (hm : (key, value) ∈ fields) : Recordable value :=
  h.below (h.here.get?_of_mem hm)

def RecordableNode : Node → Prop
  | .mapping fields => RecordableHere fields
  | _ => True

lemma Recordable.of_everywhere {doc : Node} (h : doc.Everywhere RecordableNode) : Recordable doc :=
  fun _ _ hchain => (h.within (within_of_descend hchain)).here

lemma recordable_of_descend {doc : Node} (h : Recordable doc) {keys : List String} {n : Node}
    (hn : doc.descend keys = some n) :
    ∀ key ∈ keys, ∃ fields, RecordableHere fields ∧ key ∈ Fields.keys fields := by
  induction keys generalizing doc with
  | nil => exact fun _ hm => absurd hm List.not_mem_nil
  | cons key rest ih =>
    cases doc with
    | mapping fields =>
      obtain ⟨value, hget, hrest⟩ := descend_cons.mp hn
      have hkey : key ∈ Fields.keys fields := List.mem_map_of_mem (Fields.mem_of_get? hget)
      exact List.forall_mem_cons.mpr ⟨⟨fields, h.here, hkey⟩, ih (h.below hget) hrest⟩
    | _ => cases hn

lemma findable_of_descend {doc : Node} (h : Recordable doc) {keys : List String} {n : Node}
    (hn : doc.descend keys = some n) : Findable keys := by
  have hnamed := recordable_of_descend h hn
  refine ⟨fun key hm => ?_, fun key hm => ?_, .inr fun key hm => ?_⟩
  · obtain ⟨fields, hhere, hkey⟩ := hnamed key hm
    exact hhere.undotted key hkey
  · obtain ⟨fields, hhere, hkey⟩ := hnamed key hm
    exact strip_of_unannotated (hhere.single key hkey)
  · obtain ⟨fields, hhere, hkey⟩ := hnamed key (List.mem_of_mem_head? hm)
    exact hhere.filled key hkey

lemma mem_annotated_iff {doc : Node} (h : Recordable doc) {chain : List String}
    {key typeName : String} :
    (chain ++ [key], typeName) ∈ annotated doc ↔
      ∃ fields, doc.descend chain = some (.mapping fields) ∧ key ∈ Fields.keys fields ∧
        ∃ a, read? key = some a ∧ a.typeName = typeName := by
  induction chain generalizing doc with
  | nil =>
    cases doc with
    | mapping fields =>
      rw [List.nil_append, annotated, mem_annotatedFields]
      constructor
      · rintro ⟨k, value, hm, ⟨heq, a, ha, rfl⟩ | ⟨below, heq, hbelow⟩⟩
        · obtain ⟨rfl, -⟩ := List.cons.inj heq
          exact ⟨fields, rfl, List.mem_map_of_mem hm, a, ha, rfl⟩
        · obtain ⟨-, rfl⟩ := List.cons.inj heq
          exact absurd rfl (ne_nil_of_mem_annotated hbelow)
      · rintro ⟨_, ⟨⟩, hkey, a, ha, rfl⟩
        obtain ⟨⟨k, value⟩, hm, rfl⟩ := List.mem_map.mp hkey
        exact ⟨k, value, hm, .inl ⟨rfl, a, ha, rfl⟩⟩
    | _ => simp [annotated, descend]
  | cons first chain ih =>
    cases doc with
    | mapping fields =>
      rw [List.cons_append, annotated, mem_annotatedFields]
      constructor
      · rintro ⟨k, value, hm, ⟨heq, -⟩ | ⟨below, heq, hbelow⟩⟩
        · simp at heq
        · obtain ⟨rfl, rfl⟩ := List.cons.inj heq
          obtain ⟨inner, hinner, hkey⟩ := (ih (h.of_mem hm)).mp hbelow
          exact ⟨inner, descend_cons.mpr ⟨value, h.here.get?_of_mem hm, hinner⟩, hkey⟩
      · rintro ⟨inner, hinner, hkey⟩
        obtain ⟨value, hget, hvalue⟩ := descend_cons.mp hinner
        exact ⟨first, value, Fields.mem_of_get? hget,
          .inr ⟨_, rfl, (ih (h.below hget)).mpr ⟨inner, hvalue, hkey⟩⟩⟩
    | _ => simp [annotated, descend, Node.get?]

lemma exists_descend {doc : Node} (h : Recordable doc) {keys : List String} {typeName : String}
    (hkeys : (keys, typeName) ∈ annotated doc) : ∃ value, doc.descend keys = some value := by
  induction keys generalizing doc with
  | nil => exact absurd rfl (ne_nil_of_mem_annotated hkeys)
  | cons key rest ih =>
    cases doc with
    | mapping fields =>
      obtain ⟨k, value, hm, ⟨heq, -⟩ | ⟨below, heq, hbelow⟩⟩ := mem_annotatedFields.mp hkeys
      · obtain ⟨rfl, rfl⟩ := List.cons.inj heq
        exact ⟨value, descend_cons.mpr ⟨value, h.here.get?_of_mem hm, rfl⟩⟩
      · obtain ⟨rfl, rfl⟩ := List.cons.inj heq
        obtain ⟨n, hn⟩ := ih (h.of_mem hm) hbelow
        exact ⟨n, descend_cons.mpr ⟨value, h.here.get?_of_mem hm, hn⟩⟩
    | _ => cases hkeys

lemma pathKeys_of_recordable {doc : Node} (h : Recordable doc) {keys : List String} {typeName : String}
    (hkeys : (keys, typeName) ∈ annotated doc) :
    pathKeys (recordedPath keys) = keys.map strip := by
  obtain ⟨value, hvalue⟩ := exists_descend h hkeys
  have hfindable := findable_of_descend h hvalue
  exact pathKeys_recordedPath hfindable.undotted hfindable.named (ne_nil_of_mem_annotated hkeys)

abbrev namesOf (entry : List String × String) : List String := entry.1.map strip

lemma head_of_mem_annotatedFields {fields : List (String × Node)} {entry : List String × String}
    (h : entry ∈ annotatedFields fields) :
    ∃ name ∈ (Fields.keys fields).map strip, (namesOf entry).head? = some name := by
  obtain ⟨key, value, hm, ⟨heq, -⟩ | ⟨below, heq, -⟩⟩ := mem_annotatedFields.mp h
  all_goals
    have hkey : key ∈ Fields.keys fields := List.mem_map_of_mem hm
    exact ⟨strip key, List.mem_map_of_mem hkey, by rw [namesOf, heq]; rfl⟩

lemma annotatedFields_cons (field : String × Node) (rest : List (String × Node)) :
    annotatedFields (field :: rest) = annotatedFields [field] ++ annotatedFields rest := by
  obtain ⟨key, value⟩ := field
  simp [annotatedFields]

lemma nodup_annotatedField {key : String} {value : Node}
    (h : ((annotated value).map namesOf).Nodup) :
    ((annotatedFields [(key, value)]).map namesOf).Nodup := by
  rw [annotatedFields, annotatedFields, List.append_nil, List.map_append, List.map_map]
  change (_ ++ (annotated value).map ((strip key :: ·) ∘ namesOf)).Nodup
  rw [← List.map_map, List.nodup_append]
  refine ⟨by cases read? key <;> simp, h.map List.cons_injective, ?_⟩
  -- The names of an entry below the key are more than one.
  rintro _ hown _ hdeeper rfl
  obtain ⟨_, hnames, heq⟩ := List.mem_map.mp hdeeper
  obtain ⟨entry, hentry, rfl⟩ := List.mem_map.mp hnames
  have hne := ne_nil_of_mem_annotated hentry
  obtain ⟨own, hmem, rfl⟩ := List.mem_map.mp hown
  obtain ⟨a, -, rfl⟩ := Option.map_eq_some_iff.mp (Option.mem_toList.mp hmem)
  exact hne (List.map_eq_nil_iff.mp (List.cons.inj heq).2)

mutual

lemma nodup_annotated : (doc : Node) → Recordable doc → ((annotated doc).map namesOf).Nodup
  | .mapping fields, h =>
    nodup_annotatedFields fields h.here.distinct fun _ _ hm => h.of_mem hm
  | .null, _ | .bool _, _ | .int _, _ | .float _, _ | .string _, _ | .sequence _, _
  | .expression _, _ | .tag _ _, _ | .conditional _ _, _ => List.nodup_nil

lemma nodup_annotatedFields : (fields : List (String × Node)) →
    ((Fields.keys fields).map strip).Nodup →
    (∀ key value, (key, value) ∈ fields → Recordable value) →
    ((annotatedFields fields).map namesOf).Nodup
  | [], _, _ => List.nodup_nil
  | (key, value) :: rest, hdistinct, hnamed => by
    obtain ⟨hkey, hrest⟩ := List.nodup_cons.mp hdistinct
    have hmore := nodup_annotatedFields rest hrest fun k v hm => hnamed k v (.tail _ hm)
    have hbelow := nodup_annotated value (hnamed key value (.head _))
    rw [annotatedFields_cons, List.map_append, List.nodup_append]
    refine ⟨nodup_annotatedField hbelow, hmore, ?_⟩
    rintro _ hfirst _ hlater rfl
    obtain ⟨entry, hentry, rfl⟩ := List.mem_map.mp hfirst
    obtain ⟨other, hother, heq⟩ := List.mem_map.mp hlater
    obtain ⟨name, hname, hhead⟩ := head_of_mem_annotatedFields hentry
    obtain ⟨name', hname', hhead'⟩ := head_of_mem_annotatedFields hother
    rw [heq, hhead] at hhead'
    cases hhead'
    obtain rfl := List.mem_singleton.mp hname
    exact hkey hname'

end

lemma extract_of_recordable {doc : Node} (h : Recordable doc) :
    extract doc = (annotated doc).map (recordBelow "") ∧ (Fields.keys (extract doc)).Nodup := by
  have hpaths : ((annotated doc).map fun entry => recordedPath entry.1).Nodup := by
    apply List.Nodup.of_map pathKeys
    rw [List.map_map]
    have hnames : (annotated doc).map (pathKeys ∘ fun entry => recordedPath entry.1) =
        (annotated doc).map namesOf :=
      List.map_congr_left fun entry hm => pathKeys_of_recordable h hm
    rw [hnames]
    exact nodup_annotated doc h
  have hkeys : (Fields.keys ((annotated doc).map (recordBelow ""))).Nodup := by
    rw [Fields.keys, List.map_map]
    exact hpaths
  have hextract : extract doc = (annotated doc).map (recordBelow "") :=
    (extract_eq doc).trans (Fields.insertAll_of_nodup hkeys)
  exact ⟨hextract, hextract ▸ hkeys⟩

end LayeredConfig.Ascription
