import LayeredConfig.Proofs.Node.Merging
import LayeredConfig.Proofs.Node.Within
import LayeredConfig.Proofs.Number.Order
import Mathlib.Data.List.Perm.Subperm

namespace LayeredConfig.Node

lemma fieldsAmong_iff {fields : List (String × Node)} {others : Mapping} :
    fieldsAmong fields others = true ↔ ∀ field ∈ fields, ∃ partner,
      Fields.get? others field.1 = some partner ∧ same field.2 partner = true := by
  induction fields with
  | nil => simp [fieldsAmong]
  | cons field rest ih =>
    obtain ⟨key, a⟩ := field
    rw [fieldsAmong, Bool.and_eq_true, ih, List.forall_mem_cons]
    refine and_congr_left fun _ => ?_
    cases Fields.get? others key <;> simp

section

variable {fields others : Mapping} (hnodup : (Fields.keys fields).Nodup)
  (hothers : (Fields.keys others).Nodup) (hlength : fields.length = others.length)
  (h : fieldsAmong fields others = true)
include hnodup hlength h

lemma keys_subset_of_fieldsAmong : Fields.keys others ⊆ Fields.keys fields := by
  have hsubset : Fields.keys fields ⊆ Fields.keys others := by
    intro key hkey
    obtain ⟨field, hfield, rfl⟩ := List.mem_map.mp hkey
    obtain ⟨partner, hpartner, -⟩ := fieldsAmong_iff.mp h field hfield
    exact List.mem_map.mpr ⟨_, Fields.mem_of_get? hpartner, rfl⟩
  have hle : (Fields.keys others).length ≤ (Fields.keys fields).length := by
    simp [Fields.keys, hlength]
  exact ((List.subperm_of_subset hnodup hsubset).perm_of_length_le hle).symm.subset

include hothers in
lemma exists_partner {field : String × Node} (hfield : field ∈ others) :
    ∃ value, (field.1, value) ∈ fields ∧ same value field.2 = true := by
  have hkey := keys_subset_of_fieldsAmong hnodup hlength h (List.mem_map_of_mem hfield)
  obtain ⟨⟨key, value⟩, hm, hname⟩ := List.mem_map.mp hkey
  obtain rfl : key = field.1 := hname
  obtain ⟨partner, hpartner, hsame⟩ := fieldsAmong_iff.mp h _ hm
  have hget := Fields.get?_of_mem hothers hfield
  obtain rfl : partner = field.2 := Option.some.inj (hpartner.symm.trans hget)
  exact ⟨value, hm, hsame⟩

end

mutual

lemma same_swap : (a : Node) → a.Everywhere KeysNodup → ∀ {b : Node}, b.Everywhere KeysNodup →
    same a b = true → same b a = true
  | .mapping fields, ⟨hkeys, hfields⟩, b, hb, h => by
    cases b with
    | mapping others =>
      obtain ⟨hkeys', hothers⟩ := hb
      rw [same, Bool.and_eq_true, beq_iff_eq] at h ⊢
      refine ⟨h.1.symm, fieldsAmong_iff.mpr fun field hfield => ?_⟩
      obtain ⟨value, hm, hsame⟩ :=
        exists_partner (hkeys _ rfl) (hkeys' _ rfl) h.1 h.2 hfield
      have hother := fieldsEverywhere_iff.mp hothers field hfield
      exact ⟨value, Fields.get?_of_mem (hkeys _ rfl) hm,
        same_swap_field fields hfields _ hm hother hsame⟩
    | _ => cases h
  | .sequence items, ⟨_, hitems⟩, b, hb, h => by
    cases b with
    | sequence others => exact itemsSame_swap items hitems hb.2 h
    | _ => cases h
  | .conditional condition value, ⟨_, hvalue⟩, b, hb, h => by
    cases b with
    | conditional condition' value' =>
      rw [same, Bool.and_eq_true, beq_iff_eq] at h ⊢
      exact ⟨h.1.symm, same_swap value hvalue hb.2 h.2⟩
    | _ => cases h
  | .float x, _, b, _, h => by
    cases b with
    | float y => exact (Number.float_beq_comm y x).trans h
    | _ => cases h
  | .null, _, b, _, h | .bool _, _, b, _, h | .int _, _, b, _, h | .string _, _, b, _, h
  | .expression _, _, b, _, h | .tag _ _, _, b, _, h => by
    cases b <;> simp_all [same]

lemma itemsSame_swap : (items : List Node) → ItemsEverywhere KeysNodup items →
    ∀ {others : List Node}, ItemsEverywhere KeysNodup others → itemsSame items others = true →
    itemsSame others items = true
  | [], _, others, _, h => by
    cases others with
    | nil => rfl
    | cons => cases h
  | item :: rest, ⟨hitem, hrest⟩, others, hothers, h => by
    cases others with
    | nil => cases h
    | cons other others =>
      rw [itemsSame, Bool.and_eq_true] at h ⊢
      exact ⟨same_swap item hitem hothers.1 h.1, itemsSame_swap rest hrest hothers.2 h.2⟩

lemma same_swap_field : (fields : List (String × Node)) → FieldsEverywhere KeysNodup fields →
    ∀ field ∈ fields, ∀ {other : Node}, other.Everywhere KeysNodup → same field.2 other = true →
    same other field.2 = true
  | (_, value) :: rest, ⟨hvalue, hrest⟩, field, hm, other, hother, h => by
    obtain rfl | hm := List.mem_cons.mp hm
    · exact same_swap value hvalue hother h
    · exact same_swap_field rest hrest field hm hother h

end

lemma same_comm {a b : Node} (ha : a.Everywhere KeysNodup) (hb : b.Everywhere KeysNodup) :
    same a b = same b a :=
  Bool.eq_iff_iff.mpr ⟨same_swap a ha hb, same_swap b hb ha⟩

end LayeredConfig.Node
