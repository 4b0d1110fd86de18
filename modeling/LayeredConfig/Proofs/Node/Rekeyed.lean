import LayeredConfig.Proofs.Ascription.Shape
import LayeredConfig.Proofs.Node.Within
import Mathlib.Data.Finset.Max

namespace LayeredConfig

open Ascription

namespace Ascription

lemma strip_of_onto {keys : List String} (h : ∀ key ∈ keys, ∃ longer ∈ keys, strip longer = key) :
    ∀ key ∈ keys, strip key = key := by
  -- Keys that are all left over from one another have nothing to lose: the longest one that does
  -- lose something would be left over from a longer one.
  by_contra hex
  push Not at hex
  obtain ⟨key, hkey, hlost⟩ := hex
  have hmem : key ∈ keys.toFinset.filter fun key => strip key ≠ key := by simp [hkey, hlost]
  obtain ⟨longest, hlongest, hmax⟩ := Finset.exists_max_image _ String.length ⟨key, hmem⟩
  simp only [Finset.mem_filter, List.mem_toFinset] at hlongest hmax
  obtain ⟨longer, hlonger, rfl⟩ := h longest hlongest.1
  have hmoved : strip longer ≠ longer := fun heq => hlongest.2 (congrArg strip heq)
  have hshorter := (length_strip longer).resolve_left hmoved
  exact absurd (hmax longer ⟨hlonger, hmoved⟩) (Nat.not_le.mpr hshorter)

end Ascription

namespace Node

mutual

def rekeyed : Node → Node
  | .mapping fields => .mapping (Fields.ofPairs (rekeyedFields fields))
  | .sequence items => .sequence (rekeyedItems items)
  | n => n

def rekeyedItems : List Node → List Node
  | [] => []
  | item :: rest => item.rekeyed :: rekeyedItems rest

def rekeyedFields : List (String × Node) → List (String × Node)
  | [] => []
  | (key, value) :: rest => (strip key, value.rekeyed) :: rekeyedFields rest

end

def HasKey (n : Node) (key : String) : Prop :=
  ∃ fields, Within n (.mapping fields) ∧ key ∈ Fields.keys fields

def KeyedHere (p : String → Prop) : Node → Prop
  | .mapping fields => (Fields.keys fields).Nodup ∧ ∀ key ∈ Fields.keys fields, p key
  | _ => True

variable {p : String → Prop} {n : Node}

lemma Everywhere.hasKey (h : n.Everywhere (KeyedHere p)) {key : String} (hkey : n.HasKey key) :
    p key := by
  obtain ⟨fields, hfields, hm⟩ := hkey
  exact (h.within hfields).here.2 key hm

lemma Everywhere.keyed {q : String → Prop} (h : n.Everywhere (KeyedHere p))
    (hq : ∀ key, n.HasKey key → q key) : n.Everywhere (KeyedHere q) := by
  refine everywhere_of_within n fun m hm => ?_
  cases m with
  | mapping fields => exact ⟨(h.within hm).here.1, fun key hkey => hq key ⟨fields, hm, hkey⟩⟩
  | _ => trivial

lemma keys_rekeyedFields (fields : Mapping) :
    Fields.keys (rekeyedFields fields) = (Fields.keys fields).map strip := by
  induction fields with
  | nil => rfl
  | cons field rest ih => exact congrArg (strip field.1 :: ·) ih

lemma ofPairs_of_nodup {fields : Mapping} (h : (Fields.keys fields).Nodup) :
    Fields.ofPairs fields = fields := by
  have hnodup : (Fields.keys ([] : Mapping) ++ Fields.keys fields).Nodup := h
  exact Fields.insertAll_of_nodup hnodup

lemma strip_of_rekeyed {fields : Mapping} (h : Fields.ofPairs (rekeyedFields fields) = fields) :
    ∀ key ∈ Fields.keys fields, strip key = key := by
  refine strip_of_onto fun key hkey => ?_
  rw [← h] at hkey
  obtain ⟨field, hfield, rfl⟩ := List.mem_map.mp hkey
  have hrenamed : field ∈ rekeyedFields fields :=
    (Fields.mem_insertAll hfield).resolve_left List.not_mem_nil
  have hname : field.1 ∈ (Fields.keys fields).map strip :=
    keys_rekeyedFields fields ▸ List.mem_map_of_mem hrenamed
  exact List.mem_map.mp hname

lemma map_strip_of_fixed {keys : List String} (h : ∀ key ∈ keys, strip key = key) :
    keys.map strip = keys :=
  (List.map_congr_left h).trans (List.map_id _)

mutual

lemma rekeyed_of_keyed : (n : Node) → n.Everywhere (KeyedHere fun key => strip key = key) →
    n.rekeyed = n
  | .mapping fields, ⟨⟨hnodup, hkeys⟩, hfields⟩ => by
    rw [rekeyed, rekeyedFields_of_keyed fields hkeys hfields, ofPairs_of_nodup hnodup]
  | .sequence items, ⟨_, hitems⟩ => by rw [rekeyed, rekeyedItems_of_keyed items hitems]
  | .null, _ | .bool _, _ | .int _, _ | .float _, _ | .string _, _ | .expression _, _
  | .tag _ _, _ | .conditional _ _, _ => rfl

lemma rekeyedItems_of_keyed : (items : List Node) →
    ItemsEverywhere (KeyedHere fun key => strip key = key) items → rekeyedItems items = items
  | [], _ => rfl
  | item :: rest, h => by
    rw [rekeyedItems, rekeyed_of_keyed item h.1, rekeyedItems_of_keyed rest h.2]

lemma rekeyedFields_of_keyed : (fields : List (String × Node)) →
    (∀ key ∈ Fields.keys fields, strip key = key) →
    FieldsEverywhere (KeyedHere fun key => strip key = key) fields → rekeyedFields fields = fields
  | [], _, _ => rfl
  | (key, value) :: rest, hkeys, h => by
    have hrest := rekeyedFields_of_keyed rest (fun k hm => hkeys k (List.mem_cons_of_mem _ hm)) h.2
    rw [rekeyedFields, hkeys key List.mem_cons_self, rekeyed_of_keyed value h.1, hrest]

end

mutual

lemma keyed_of_rekeyed : (n : Node) → n.isResolved = true → n.Everywhere (KeyedHere fun _ => True) →
    n.rekeyed = n → n.Everywhere (KeyedHere fun key => strip key = key)
  | .mapping fields, hn, ⟨⟨hnodup, _⟩, hfields⟩, h => by
    have hpairs : Fields.ofPairs (rekeyedFields fields) = fields := Node.mapping.inj h
    have hkeys := strip_of_rekeyed hpairs
    have hrenamed : (Fields.keys (rekeyedFields fields)).Nodup := by
      rwa [keys_rekeyedFields, map_strip_of_fixed hkeys]
    rw [ofPairs_of_nodup hrenamed] at hpairs
    exact ⟨⟨hnodup, hkeys⟩, keyedFields_of_rekeyed fields hn hfields hpairs⟩
  | .sequence items, hn, ⟨_, hitems⟩, h =>
    ⟨trivial, keyedItems_of_rekeyed items hn hitems (Node.sequence.inj h)⟩
  | .null, _, _, _ | .bool _, _, _, _ | .int _, _, _, _ | .float _, _, _, _
  | .string _, _, _, _ => trivial

lemma keyedItems_of_rekeyed : (items : List Node) → itemsResolved items = true →
    ItemsEverywhere (KeyedHere fun _ => True) items → rekeyedItems items = items →
    ItemsEverywhere (KeyedHere fun key => strip key = key) items
  | [], _, _, _ => trivial
  | item :: rest, hn, hd, h => by
    obtain ⟨hitem, hrest⟩ := List.cons.inj h
    obtain ⟨hn, hnrest⟩ := Bool.and_eq_true_iff.mp hn
    exact ⟨keyed_of_rekeyed item hn hd.1 hitem, keyedItems_of_rekeyed rest hnrest hd.2 hrest⟩

lemma keyedFields_of_rekeyed : (fields : List (String × Node)) → fieldsResolved fields = true →
    FieldsEverywhere (KeyedHere fun _ => True) fields → rekeyedFields fields = fields →
    FieldsEverywhere (KeyedHere fun key => strip key = key) fields
  | [], _, _, _ => trivial
  | (key, value) :: rest, hn, hd, h => by
    obtain ⟨hfield, hrest⟩ := List.cons.inj h
    obtain ⟨hn, hnrest⟩ := Bool.and_eq_true_iff.mp hn
    exact ⟨keyed_of_rekeyed value hn hd.1 (Prod.mk.inj hfield).2,
      keyedFields_of_rekeyed rest hnrest hd.2 hrest⟩

end

lemma rekeyed_eq_self_iff (hn : n.isResolved = true) (hd : n.Everywhere (KeyedHere p)) :
    n.rekeyed = n ↔ ∀ key, n.HasKey key → strip key = key := by
  constructor
  · intro h key hkey
    exact (keyed_of_rekeyed n hn (hd.keyed fun _ _ => trivial) h).hasKey hkey
  · intro h
    exact rekeyed_of_keyed n (hd.keyed h)

end Node

end LayeredConfig
