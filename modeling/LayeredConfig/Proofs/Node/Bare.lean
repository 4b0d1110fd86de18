import LayeredConfig.Ascription
import LayeredConfig.Node.Layering
import LayeredConfig.Proofs.Fields

namespace LayeredConfig

open Ascription

abbrev Chains := List String → Prop

namespace Chains

def below (chains : Chains) (key : String) : Chains := fun keys => chains (key :: keys)

def Alike (chains : Chains) : Prop :=
  ∀ keys keys', chains keys → chains keys' → keys.map strip = keys'.map strip → keys = keys'

lemma Alike.below {chains : Chains} (h : chains.Alike) (key : String) :
    (chains.below key).Alike := by
  intro keys keys' hk hk' heq
  have hcons : (key :: keys).map strip = (key :: keys').map strip := by
    rw [List.map_cons, List.map_cons, heq]
  exact List.tail_eq_of_cons_eq (h _ _ hk hk' hcons)

lemma Alike.key_eq {chains : Chains} (h : chains.Alike) {key key' : String} (hk : chains [key])
    (hk' : chains [key']) (heq : strip key = strip key') : key = key' := by
  have hlist : [key] = [key'] := h _ _ hk hk' (by simp [heq])
  simpa using hlist

end Chains

namespace Node

mutual

def bare : Node → Node
  | .mapping fields => .mapping (bareFields fields)
  | n => n

def bareFields : List (String × Node) → List (String × Node)
  | [] => []
  | (key, value) :: rest => (strip key, value.bare) :: bareFields rest

end

mutual

def KeysIn (chains : Chains) : Node → Prop
  | .mapping fields => FieldsKeysIn chains fields
  | _ => True

def FieldsKeysIn (chains : Chains) : List (String × Node) → Prop
  | [] => True
  | (key, value) :: rest =>
    chains [key] ∧ value.KeysIn (chains.below key) ∧ FieldsKeysIn chains rest

end

lemma bareFields_eq (fields : Mapping) : bareFields fields = Fields.mapFields strip bare fields := by
  induction fields with
  | nil => rfl
  | cons field rest ih =>
    obtain ⟨key, value⟩ := field
    rw [bareFields, ih]
    rfl

lemma fieldsKeysIn_iff {chains : Chains} {fields : Mapping} :
    FieldsKeysIn chains fields ↔
      ∀ field ∈ fields, chains [field.1] ∧ field.2.KeysIn (chains.below field.1) := by
  induction fields with
  | nil => simp [FieldsKeysIn]
  | cons field rest ih =>
    obtain ⟨key, value⟩ := field
    simp only [FieldsKeysIn, ih, List.forall_mem_cons]
    exact and_assoc.symm

section

variable {chains : Chains} (halike : chains.Alike) {fields : Mapping} {key : String}
  (hfields : FieldsKeysIn chains fields) (hkey : chains [key])
include halike hfields hkey

lemma spelled_alike : ∀ other ∈ Fields.keys fields, strip other = strip key → other = key := by
  intro other hother heq
  obtain ⟨field, hfield, rfl⟩ := List.mem_map.mp hother
  exact halike.key_eq (fieldsKeysIn_iff.mp hfields field hfield).1 hkey heq

lemma get?_bareFields :
    Fields.get? (bareFields fields) (strip key) = (Fields.get? fields key).map bare := by
  rw [bareFields_eq]
  exact Fields.get?_mapFields (spelled_alike halike hfields hkey)

lemma insert_bareFields (value : Node) :
    Fields.insert (bareFields fields) (strip key) value.bare =
      bareFields (Fields.insert fields key value) := by
  rw [bareFields_eq, bareFields_eq]
  exact Fields.insert_mapFields (spelled_alike halike hfields hkey) value

omit halike in
lemma insert_keysIn {value : Node} (hvalue : value.KeysIn (chains.below key)) :
    FieldsKeysIn chains (Fields.insert fields key value) := by
  rw [fieldsKeysIn_iff]
  intro field hm
  obtain rfl | hm := Fields.mem_insert hm
  · exact ⟨hkey, hvalue⟩
  · exact fieldsKeysIn_iff.mp hfields field hm

end

lemma bare_of_ne_object {n : Node} (h : n.kind ≠ .object) : n.bare = n := by
  cases n with
  | mapping fields => exact absurd rfl h
  | _ => rfl

lemma keysIn_of_ne_object {n : Node} (h : n.kind ≠ .object) (chains : Chains) :
    n.KeysIn chains := by
  cases n with
  | mapping fields => exact absurd rfl h
  | _ => trivial

mutual

lemma merge_bare {chains : Chains} (halike : chains.Alike) {base : Node}
    (hbase : base.KeysIn chains) : (overlay : Node) → overlay.KeysIn chains →
      (merge base overlay).KeysIn chains ∧
        (merge base overlay).bare = merge base.bare overlay.bare
  | .mapping overlay, h => by
    cases base with
    | mapping fields =>
      obtain ⟨hkeys, hbare⟩ := mergeFields_bare halike hbase overlay h
      exact ⟨hkeys, congrArg Node.mapping hbare⟩
    | _ => exact ⟨h, rfl⟩
  | .null, _ => ⟨hbase, rfl⟩
  | .sequence items, _ => by cases base <;> exact ⟨trivial, rfl⟩
  | .bool _, h | .int _, h | .float _, h | .string _, h | .expression _, h | .tag _ _, h
  | .conditional _ _, h => ⟨h, rfl⟩

lemma mergeFields_bare {chains : Chains} (halike : chains.Alike) {fields : Mapping}
    (hfields : FieldsKeysIn chains fields) : (overlay : List (String × Node)) →
      FieldsKeysIn chains overlay →
      FieldsKeysIn chains (mergeFields fields overlay) ∧
        bareFields (mergeFields fields overlay) =
          mergeFields (bareFields fields) (bareFields overlay)
  | [], _ => ⟨hfields, rfl⟩
  | (key, value) :: rest, ⟨hkey, hvalue, hrest⟩ => by
    have hget := get?_bareFields halike hfields hkey
    rw [mergeFields, bareFields, mergeFields, hget]
    cases hcurrent : Fields.get? fields key with
    | none =>
      have hinsert := insert_keysIn hfields hkey hvalue
      obtain ⟨hkeys, hbare⟩ := mergeFields_bare halike hinsert rest hrest
      refine ⟨hkeys, ?_⟩
      rw [hbare, ← insert_bareFields halike hfields hkey]
      rfl
    | some current =>
      have hcurrent := (fieldsKeysIn_iff.mp hfields _ (Fields.mem_of_get? hcurrent)).2
      obtain ⟨hmerged, hbareMerged⟩ := merge_bare (halike.below key) hcurrent value hvalue
      have hinsert := insert_keysIn hfields hkey hmerged
      obtain ⟨hkeys, hbare⟩ := mergeFields_bare halike hinsert rest hrest
      refine ⟨hkeys, ?_⟩
      rw [hbare, ← insert_bareFields halike hfields hkey, hbareMerged]
      rfl

end

end Node

end LayeredConfig
