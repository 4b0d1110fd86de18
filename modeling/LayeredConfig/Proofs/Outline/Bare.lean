import LayeredConfig.Proofs.Node.Bare
import LayeredConfig.Proofs.Outline.Descent

namespace LayeredConfig.Outline

open Ascription

def Row.bare : Row → Row
  | .header key => .header (strip key)
  | .item node => .item node
  | .entry key value => .entry (strip key) value

def bareMark (mark : Mark) : Mark := (mark.1, mark.2.map Row.bare)

def keyChains : List Mark → List (List String)
  | [] => []
  | (_, none) :: rest => keyChains rest
  | (_, some (.item _)) :: rest => keyChains rest
  | (_, some (.entry key _)) :: rest => [key] :: keyChains rest
  | (indent, some (.header key)) :: rest =>
    [key] :: (keyChains (bodyOf indent rest)).map (key :: ·) ++ keyChains (afterBody indent rest)
termination_by marks => marks.length
decreasing_by
  all_goals simp only [List.length_cons]
  any_goals omega
  · exact Nat.lt_succ_of_le (List.takeWhile_prefix _).length_le
  · exact Nat.lt_succ_of_le (List.dropWhile_suffix _).length_le

def Flat (marks : List Mark) : Prop :=
  ∀ mark ∈ marks, ∀ key value, mark.2 = some (.entry key value) → value.kind ≠ .object

mutual

def Slot.bare : Slot → Slot
  | .value node => .value node.bare
  | .nested slots bucket => .nested (bareSlots slots) bucket

def bareSlots : List (String × Slot) → List (String × Slot)
  | [] => []
  | (key, slot) :: rest => (strip key, slot.bare) :: bareSlots rest

end

def Block.bare (b : Block) : Block := ⟨bareSlots b.slots, b.bucket⟩

mutual

def Slot.KeysIn (chains : Chains) : Slot → Prop
  | .value node => node.KeysIn chains
  | .nested slots _ => SlotsKeysIn chains slots

def SlotsKeysIn (chains : Chains) : List (String × Slot) → Prop
  | [] => True
  | (key, slot) :: rest =>
    chains [key] ∧ slot.KeysIn (chains.below key) ∧ SlotsKeysIn chains rest

end

lemma bareSlots_eq (slots : Fields Slot) :
    bareSlots slots = Fields.mapFields strip Slot.bare slots := by
  induction slots with
  | nil => rfl
  | cons slot rest ih =>
    obtain ⟨key, slot⟩ := slot
    rw [bareSlots, ih]
    rfl

lemma slotsKeysIn_iff {chains : Chains} {slots : Fields Slot} :
    SlotsKeysIn chains slots ↔
      ∀ field ∈ slots, chains [field.1] ∧ field.2.KeysIn (chains.below field.1) := by
  induction slots with
  | nil => simp [SlotsKeysIn]
  | cons slot rest ih =>
    obtain ⟨key, slot⟩ := slot
    simp only [SlotsKeysIn, ih, List.forall_mem_cons]
    exact and_assoc.symm

mutual

lemma finish_bare : (slot : Slot) → slot.finish.bare = slot.bare.finish
  | .value _ => rfl
  | .nested _ (some _) => rfl
  | .nested slots none => congrArg Node.mapping (finishSlots_bare slots)

lemma finishSlots_bare : (slots : List (String × Slot)) →
    Node.bareFields (finishSlots slots) = finishSlots (bareSlots slots)
  | [] => rfl
  | (key, slot) :: rest => by
    rw [finishSlots, Node.bareFields, bareSlots, finishSlots, finish_bare slot,
      finishSlots_bare rest]

end

mutual

lemma finish_keysIn {chains : Chains} : (slot : Slot) → slot.KeysIn chains →
    slot.finish.KeysIn chains
  | .value _, h => h
  | .nested _ (some _), _ => trivial
  | .nested slots none, h => finishSlots_keysIn slots h

lemma finishSlots_keysIn {chains : Chains} : (slots : List (String × Slot)) →
    SlotsKeysIn chains slots → Node.FieldsKeysIn chains (finishSlots slots)
  | [], _ => trivial
  | (_, slot) :: rest, ⟨hkey, hslot, hrest⟩ =>
    ⟨hkey, finish_keysIn slot hslot, finishSlots_keysIn rest hrest⟩

end

section

variable {chains : Chains} {b : Block} {key : String} (hslots : SlotsKeysIn chains b.slots)
  (hkey : chains [key])
include hslots hkey

lemma insert_keysIn {slot : Slot} (hslot : slot.KeysIn (chains.below key)) :
    SlotsKeysIn chains (b.insert key slot).slots := by
  rw [slotsKeysIn_iff]
  intro field hm
  obtain rfl | hm := Fields.mem_insert hm
  · exact ⟨hkey, hslot⟩
  · exact slotsKeysIn_iff.mp hslots field hm

lemma insert_bare (halike : chains.Alike) (slot : Slot) :
    (b.insert key slot).bare = b.bare.insert (strip key) slot.bare := by
  have hspelled : ∀ other ∈ Fields.keys b.slots, strip other = strip key → other = key := by
    intro other hother heq
    obtain ⟨field, hfield, rfl⟩ := List.mem_map.mp hother
    exact halike.key_eq (slotsKeysIn_iff.mp hslots field hfield).1 hkey heq
  simp only [Block.bare, Block.insert, bareSlots_eq, Fields.insert_mapFields hspelled]

end

lemma length_bareSlots (slots : Fields Slot) : (bareSlots slots).length = slots.length := by
  rw [bareSlots_eq, Fields.mapFields, List.length_map]

lemma pushItem_bare (b : Block) (item : Node) :
    (b.pushItem item).bare = b.bare.pushItem item := by
  simp only [Block.pushItem, Block.bare, length_bareSlots]

lemma bucketIsLast_bare (b : Block) : b.bare.bucketIsLast = b.bucketIsLast := by
  simp only [Block.bucketIsLast, Block.bare, length_bareSlots]

lemma getLast?_bareSlots (slots : Fields Slot) :
    (bareSlots slots).getLast? = slots.getLast?.map fun (key, slot) => (strip key, slot.bare) := by
  rw [bareSlots_eq, Fields.mapFields, List.getLast?_map]

lemma attach_bare {chains : Chains} (halike : chains.Alike) {b : Block}
    (hslots : SlotsKeysIn chains b.slots) (item : Node) :
    SlotsKeysIn chains (b.attach item).slots ∧ (b.attach item).bare = b.bare.attach item := by
  unfold Block.attach
  rw [bucketIsLast_bare]
  split
  · exact ⟨hslots, pushItem_bare b item⟩
  · have hlast := getLast?_bareSlots b.slots
    simp only [Block.bare] at hlast ⊢
    rw [hlast]
    cases hslot : b.slots.getLast? with
    | none => exact ⟨hslots, pushItem_bare b item⟩
    | some last =>
      obtain ⟨key, slot⟩ := last
      have hmem := List.mem_of_getLast? hslot
      obtain ⟨hkey, hin⟩ := slotsKeysIn_iff.mp hslots _ hmem
      cases slot with
      | value node => exact ⟨hslots, pushItem_bare b item⟩
      | nested slots bucket =>
        refine ⟨insert_keysIn hslots hkey hin, ?_⟩
        refine (insert_bare hslots hkey halike _).trans ?_
        exact congrArg (Block.insert b.bare (strip key))
          (congrArg Block.toSlot (pushItem_bare ⟨slots, bucket⟩ item))

lemma bodyOf_bare (indent : Nat) (marks : List Mark) :
    bodyOf indent (marks.map bareMark) = (bodyOf indent marks).map bareMark := by
  rw [bodyOf, List.takeWhile_map]
  rfl

lemma afterBody_bare (indent : Nat) (marks : List Mark) :
    afterBody indent (marks.map bareMark) = (afterBody indent marks).map bareMark := by
  rw [afterBody, List.dropWhile_map]
  rfl

lemma Flat.cons {mark : Mark} {marks : List Mark} (h : Flat (mark :: marks)) : Flat marks :=
  fun other hm => h other (List.mem_cons_of_mem _ hm)

lemma Flat.bodyOf {marks : List Mark} (h : Flat marks) (indent : Nat) :
    Flat (bodyOf indent marks) :=
  fun mark hm => h mark ((List.takeWhile_prefix _).subset hm)

lemma Flat.afterBody {marks : List Mark} (h : Flat marks) (indent : Nat) :
    Flat (afterBody indent marks) :=
  fun mark hm => h mark ((List.dropWhile_suffix _).subset hm)

lemma build_bare {chains : Chains} (halike : chains.Alike) {b : Block}
    (hslots : SlotsKeysIn chains b.slots) {marks : List Mark} (hflat : Flat marks)
    (hmarks : ∀ keys ∈ keyChains marks, chains keys) :
    SlotsKeysIn chains (build b marks).slots ∧
      (build b marks).bare = build b.bare (marks.map bareMark) := by
  induction b, marks using build.induct generalizing chains with
  | case1 b => exact ⟨by rwa [build], by simp [build]⟩
  | case2 b indent rest ih =>
    rw [keyChains] at hmarks
    obtain ⟨hkeys, hbare⟩ := ih halike hslots hflat.cons hmarks
    exact ⟨by rwa [build], by rw [build, hbare, List.map_cons]; simp [bareMark, build]⟩
  | case3 b indent node rest ih =>
    rw [keyChains] at hmarks
    obtain ⟨hattach, hbareAttach⟩ := attach_bare halike hslots node
    obtain ⟨hkeys, hbare⟩ := ih halike hattach hflat.cons hmarks
    refine ⟨by rwa [build], ?_⟩
    rw [build, hbare, hbareAttach]
    simp [bareMark, Row.bare, build]
  | case4 b indent key value rest ih =>
    rw [keyChains] at hmarks
    have hkey : chains [key] := hmarks _ List.mem_cons_self
    have hvalue := hflat _ List.mem_cons_self key value rfl
    have hslot : (Slot.value value).KeysIn (chains.below key) := Node.keysIn_of_ne_object hvalue _
    have hinsert := insert_keysIn hslots hkey hslot
    obtain ⟨hkeys, hbare⟩ :=
      ih halike hinsert hflat.cons fun keys hm => hmarks keys (List.mem_cons_of_mem _ hm)
    refine ⟨by rwa [build], ?_⟩
    rw [build, hbare, insert_bare hslots hkey halike]
    simp [bareMark, Row.bare, build, Slot.bare, Node.bare_of_ne_object hvalue]
  | case5 b indent key rest ihBody ihAfter =>
    rw [keyChains] at hmarks
    -- The section is built under the chains below its key, and then goes in as one field.
    have hkey : chains [key] := hmarks _ (by simp)
    have hbody : ∀ keys ∈ keyChains (bodyOf indent rest), (chains.below key) keys :=
      fun keys hm => hmarks _ (by simp [hm])
    have hafter : ∀ keys ∈ keyChains (afterBody indent rest), chains keys :=
      fun keys hm => hmarks _ (by simp [hm])
    obtain ⟨hnested, hbareBody⟩ :=
      ihBody (halike.below key) trivial (hflat.cons.bodyOf indent) hbody
    have hslot : (build .empty (bodyOf indent rest)).toSlot.KeysIn (chains.below key) := hnested
    have hbareSlot : (build .empty (bodyOf indent rest)).toSlot.bare =
        (build .empty ((bodyOf indent rest).map bareMark)).toSlot := congrArg Block.toSlot hbareBody
    have hinsert := insert_keysIn hslots hkey hslot
    obtain ⟨hkeys, hbare⟩ := ihAfter halike hinsert (hflat.cons.afterBody indent) hafter
    refine ⟨by rwa [build], ?_⟩
    rw [build, hbare, insert_bare hslots hkey halike, hbareSlot, List.map_cons]
    simp only [bareMark, Row.bare, Option.map_some, build]
    rw [bodyOf_bare, afterBody_bare]

end LayeredConfig.Outline
