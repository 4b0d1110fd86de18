import LayeredConfig.Node.Layering
import LayeredConfig.Node.View
import LayeredConfig.Proofs.Fields

namespace LayeredConfig.Node

lemma null_merge (n : Node) : null.merge n = n := by
  cases n <;> rfl

lemma eq_null_of_isNull {n : Node} (h : n.isNull = true) : n = .null := by
  cases n with
  | null => rfl
  | _ => cases h

lemma isContainer_merge (base : Node) {overlay : Node} (h : overlay.isContainer) :
    (base.merge overlay).isContainer := by
  cases overlay with
  | mapping | sequence => cases base <;> rfl
  | _ => cases h

lemma isNull_merge (base overlay : Node) :
    (base.merge overlay).isNull = (base.isNull && overlay.isNull) := by
  cases overlay with
  | null => exact (Bool.and_true _).symm
  | mapping | sequence => cases base <;> rfl
  | _ => exact (Bool.and_false _).symm

section

variable {overlay : Mapping} (h : (Fields.keys overlay).Nodup) (fields : Mapping)
include h

lemma get?_mergeFields (key : String) :
    Fields.get? (mergeFields fields overlay) key =
      (Fields.get? fields key).merge merge (Fields.get? overlay key) := by
  induction overlay generalizing fields with
  | nil => exact Option.merge_none_right.symm
  | cons field rest ih =>
    obtain ⟨k, value⟩ := field
    obtain ⟨hk, hrest⟩ := List.nodup_cons.mp h
    rw [mergeFields, ih hrest, Fields.get?_insert, Fields.get?_cons]
    by_cases hkey : key = k
    · subst hkey
      rw [if_pos rfl, if_pos rfl, Fields.get?_eq_none_iff.mpr hk, Option.merge_none_right]
      cases Fields.get? fields key <;> rfl
    · rw [if_neg hkey, if_neg hkey]

lemma keys_mergeFields : Fields.keys (mergeFields fields overlay) =
    Fields.keys fields ++ (Fields.keys overlay).removeAll (Fields.keys fields) := by
  induction overlay generalizing fields with
  | nil => exact (List.append_nil _).symm
  | cons field rest ih =>
    obtain ⟨k, value⟩ := field
    obtain ⟨hk, hrest⟩ := List.nodup_cons.mp h
    rw [mergeFields, ih hrest, Fields.keys_insert]
    change _ = _ ++ (k :: Fields.keys rest).removeAll _
    rw [List.cons_removeAll]
    by_cases hmem : k ∈ Fields.keys fields
    · simp [hmem]
    · have hother : (Fields.keys rest).removeAll (Fields.keys fields ++ [k]) =
          (Fields.keys rest).removeAll (Fields.keys fields) := by
        apply List.filter_congr
        intro key hkey
        have hne : key ≠ k := fun heq => hk (heq ▸ hkey)
        simp [hne]
      simp [hmem, hother]

omit h in
lemma nodup_mergeFields {fields : Mapping} (hfields : (Fields.keys fields).Nodup)
    (overlay : Mapping) : (Fields.keys (mergeFields fields overlay)).Nodup := by
  induction overlay generalizing fields with
  | nil => exact hfields
  | cons field rest ih => exact ih (Fields.nodup_insert hfields _ _)

lemma mergeFields_nil : mergeFields [] overlay = overlay := by
  have hnone : (Fields.keys ([] : Mapping)).Nodup := List.nodup_nil
  apply Fields.ext_of_nodup (nodup_mergeFields hnone overlay)
  · rw [keys_mergeFields h]
    exact List.removeAll_nil
  · intro key
    rw [get?_mergeFields h]
    exact Option.merge_none_left

end

def KeysNodup (n : Node) : Prop := ∀ fields, n = .mapping fields → (Fields.keys fields).Nodup

lemma KeysNodup.merge {base overlay : Node} (hbase : base.KeysNodup) (h : overlay.KeysNodup) :
    (base.merge overlay).KeysNodup := by
  intro fields hfields
  cases overlay with
  | mapping upper =>
    cases base with
    | mapping lower =>
      cases hfields
      exact nodup_mergeFields (hbase lower rfl) upper
    | _ =>
      cases hfields
      exact h _ rfl
  | sequence items => cases base <;> cases hfields
  | null => exact hbase fields hfields
  | _ => cases hfields

lemma get?_merge_eq_none {base overlay : Node} (hnodup : overlay.KeysNodup) {key : String}
    (hbase : base.get? key = none) (h : overlay.get? key = none) :
    (base.merge overlay).get? key = none := by
  cases overlay with
  | mapping upper =>
    cases base with
    | mapping lower =>
      rw [Node.get?] at hbase h
      rw [merge, Node.get?, get?_mergeFields (hnodup upper rfl), hbase, h]
      rfl
    | _ => exact h
  | sequence items => cases base <;> rfl
  | null => exact hbase
  | _ => rfl

def Distinct (n : Node) : Prop :=
  ∀ path fields, n.descend path = some (.mapping fields) → (Fields.keys fields).Nodup

lemma Distinct.keysNodup {n : Node} (h : n.Distinct) : n.KeysNodup :=
  fun fields hn => h [] fields (congrArg some hn)

def SameBelow (a b : Node) : Prop :=
  ∀ fields, (Fields.keys fields).Nodup → a.merge (.mapping fields) = b.merge (.mapping fields)

lemma SameBelow.refl (a : Node) : a.SameBelow a := fun _ _ => rfl

lemma SameBelow.symm {a b : Node} (h : a.SameBelow b) : b.SameBelow a :=
  fun fields hfields => (h fields hfields).symm

lemma SameBelow.trans {a b c : Node} (h : a.SameBelow b) (h' : b.SameBelow c) : a.SameBelow c :=
  fun fields hfields => (h fields hfields).trans (h' fields hfields)

lemma SameBelow.merge_eq {a b : Node} (h : a.SameBelow b) {overlay : Node}
    (hkind : overlay.kind = .object) (hnodup : overlay.KeysNodup) :
    a.merge overlay = b.merge overlay := by
  cases overlay with
  | mapping fields => exact h fields (hnodup fields rfl)
  | _ => cases hkind

lemma sameBelow_merge_empty (a : Node) : (a.merge (.mapping [])).SameBelow a := by
  intro fields hfields
  cases a with
  | mapping lower => rfl
  | _ => exact congrArg Node.mapping (mergeFields_nil hfields)

lemma null_sameBelow_empty : null.SameBelow (.mapping []) := (sameBelow_merge_empty null).symm

lemma SameBelow.merge {a b : Node} (h : a.SameBelow b) {overlay : Node}
    (hcontainer : overlay.isContainer) (hnodup : overlay.KeysNodup) :
    (a.merge overlay).SameBelow (b.merge overlay) := by
  cases overlay with
  | mapping fields =>
    rw [h fields (hnodup fields rfl)]
    exact .refl _
  | sequence items =>
    intro fields _
    cases a <;> cases b <;> rfl
  | _ => cases hcontainer

end LayeredConfig.Node
