import LayeredConfig.Proofs.Node.Merging
import LayeredConfig.Proofs.Node.Within

namespace LayeredConfig.Node

def isAtom : Node → Bool
  | .mapping _ | .sequence _ | .expression _ | .conditional _ _ => false
  | _ => true

def isItem : Node → Bool
  | .mapping _ | .sequence _ | .expression _ => false
  | _ => true

def OutlinedHere : Node → Prop
  | .mapping fields => (Fields.keys fields).Nodup ∧ ∀ field ∈ fields, field.2.kind ≠ .conditional
  | .sequence items => ∀ item ∈ items, item.isItem = true
  | .conditional _ value => value.isAtom = true
  | _ => True

abbrev Outlined (n : Node) : Prop := n.Everywhere OutlinedHere

lemma outlined_of_isAtom {n : Node} (h : n.isAtom = true) : n.Outlined := by
  cases n with
  | mapping | sequence | expression | conditional => cases h
  | _ => trivial

structure OutlinedValue (n : Node) : Prop where
  kind_ne : n.kind ≠ .conditional
  outlined : n.Outlined

structure OutlinedItem (n : Node) : Prop where
  item : n.isItem = true
  outlined : n.Outlined

lemma OutlinedValue.of_isAtom {n : Node} (h : n.isAtom = true) : n.OutlinedValue := by
  refine ⟨?_, outlined_of_isAtom h⟩
  cases n with
  | conditional => cases h
  | _ => simp [kind]

lemma OutlinedValue.of_container {n : Node} (h : n.isContainer = true) (hn : n.Outlined) :
    n.OutlinedValue := by
  refine ⟨?_, hn⟩
  cases n with
  | conditional => cases h
  | _ => simp [kind]

lemma OutlinedItem.of_isAtom {n : Node} (h : n.isAtom = true) : n.OutlinedItem := by
  refine ⟨?_, outlined_of_isAtom h⟩
  cases n with
  | mapping | sequence | expression => cases h
  | _ => rfl

lemma OutlinedItem.conditional (condition : String) {value : Node} (h : value.isAtom = true) :
    (Node.conditional condition value).OutlinedItem :=
  ⟨rfl, h, outlined_of_isAtom h⟩

lemma outlined_mapping {fields : Mapping} : (Node.mapping fields).Outlined ↔
    (Fields.keys fields).Nodup ∧ ∀ field ∈ fields, field.2.OutlinedValue := by
  rw [Outlined, Everywhere, fieldsEverywhere_iff]
  constructor
  · rintro ⟨⟨hnodup, hkinds⟩, hvalues⟩
    exact ⟨hnodup, fun field hm => ⟨hkinds field hm, hvalues field hm⟩⟩
  · rintro ⟨hnodup, hvalues⟩
    exact ⟨⟨hnodup, fun field hm => (hvalues field hm).kind_ne⟩, fun field hm =>
      (hvalues field hm).outlined⟩

lemma outlined_sequence {items : List Node} :
    (Node.sequence items).Outlined ↔ ∀ item ∈ items, item.OutlinedItem := by
  rw [Outlined, Everywhere, itemsEverywhere_iff]
  constructor
  · rintro ⟨hitems, houtlined⟩
    exact fun item hm => ⟨hitems item hm, houtlined item hm⟩
  · intro h
    exact ⟨fun item hm => (h item hm).item, fun item hm => (h item hm).outlined⟩

lemma outlined_empty : (Node.mapping []).Outlined :=
  outlined_mapping.mpr ⟨List.nodup_nil, fun _ hm => absurd hm List.not_mem_nil⟩

namespace Outlined

section

variable {fields : Mapping} (h : (Node.mapping fields).Outlined)
include h

lemma insert (key : String) {value : Node} (hvalue : value.OutlinedValue) :
    (Node.mapping (Fields.insert fields key value)).Outlined := by
  obtain ⟨hnodup, hvalues⟩ := outlined_mapping.mp h
  refine outlined_mapping.mpr ⟨Fields.nodup_insert hnodup key value, fun field hm => ?_⟩
  obtain rfl | hm := Fields.mem_insert hm
  · exact hvalue
  · exact hvalues field hm

lemma erase (key : String) : (Node.mapping (Fields.erase fields key)).Outlined := by
  obtain ⟨hnodup, hvalues⟩ := outlined_mapping.mp h
  refine outlined_mapping.mpr ⟨Fields.nodup_erase hnodup key, fun field hm => ?_⟩
  exact hvalues field (List.mem_of_mem_filter hm)

lemma get? {key : String} {value : Node} (hvalue : Fields.get? fields key = some value) :
    value.OutlinedValue :=
  (outlined_mapping.mp h).2 _ (Fields.mem_of_get? hvalue)

end

lemma distinct {n : Node} (h : n.Outlined) : n.Distinct := by
  intro path fields hpath
  induction path generalizing n with
  | nil =>
    cases hpath
    exact (outlined_mapping.mp h).1
  | cons key path ih =>
    rw [descend, Option.bind_eq_some_iff] at hpath
    obtain ⟨value, hvalue, hpath⟩ := hpath
    cases n with
    | mapping => exact ih (h.get? hvalue).outlined hpath
    | _ => cases hvalue

lemma append {items more : List Node} (h : (Node.sequence items).Outlined)
    (hmore : (Node.sequence more).Outlined) : (Node.sequence (items ++ more)).Outlined :=
  outlined_sequence.mpr
    (List.forall_mem_append.mpr ⟨outlined_sequence.mp h, outlined_sequence.mp hmore⟩)

end Outlined

mutual

lemma outlinedValue_merge {base : Node} (hbase : base.OutlinedValue) : (overlay : Node) →
    overlay.OutlinedValue → (base.merge overlay).OutlinedValue
  | .null, _ => hbase
  | .sequence more, h => by
    cases base with
    | sequence items => exact .of_container rfl (hbase.outlined.append h.outlined)
    | _ => exact h
  | .mapping overlay, h => by
    cases base with
    | mapping fields =>
      have hvalues := (outlined_mapping.mp h.outlined).2
      exact .of_container rfl (outlined_mergeFields hbase.outlined overlay hvalues)
    | _ => exact h
  | .bool _, h | .int _, h | .float _, h | .string _, h | .expression _, h | .tag _ _, h
  | .conditional _ _, h => h

lemma outlined_mergeFields {fields : Mapping} (hfields : (Node.mapping fields).Outlined) :
    (overlay : List (String × Node)) → (∀ field ∈ overlay, field.2.OutlinedValue) →
    (Node.mapping (mergeFields fields overlay)).Outlined
  | [], _ => hfields
  | (key, value) :: rest, h => by
    obtain ⟨hvalue, hrest⟩ := List.forall_mem_cons.mp h
    rw [mergeFields]
    cases hcurrent : Fields.get? fields key with
    | none => exact outlined_mergeFields (hfields.insert key hvalue) rest hrest
    | some current =>
      have hmerged := outlinedValue_merge (hfields.get? hcurrent) value hvalue
      exact outlined_mergeFields (hfields.insert key hmerged) rest hrest

end

end LayeredConfig.Node
