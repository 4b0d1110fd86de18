import LayeredConfig.Proofs.Node.Outlined
import LayeredConfig.Proofs.Outline.Descent

namespace LayeredConfig.Outline

open Node

lemma isAtom_numberNode (l : Number.Literal) : (numberNode l).isAtom = true := by
  rw [numberNode]
  repeat' split
  all_goals rfl

lemma isAtom_readTag {s : List Char} {n : Node} (h : readTag s = some n) : n.isAtom = true := by
  simp only [readTag, Option.bind_eq_bind, Option.bind_eq_some_iff] at h
  obtain ⟨tail, -, body, -, ⟨name, mark, args⟩, -, h⟩ := h
  dsimp only at h
  split at h
  · cases h
    rfl
  · cases h

lemma isAtom_readScalar (s : List Char) : (readScalar s).isAtom = true := by
  unfold readScalar readText
  dsimp only
  split_ifs
  · rfl
  · rfl
  · rfl
  · split
    · exact isAtom_numberNode _
    · split
      · exact isAtom_readTag ‹_›
      · rfl

def Row.Outlined : Row → Prop
  | .header _ => True
  | .item node => node.OutlinedItem
  | .entry _ value => value.isContainer = false ∧ value.OutlinedValue

lemma outlined_itemNode (content : List Char) : (itemNode content).OutlinedItem := by
  rw [itemNode]
  split
  · exact .conditional _ (isAtom_readScalar _)
  · exact .of_isAtom (isAtom_readScalar _)

lemma isContainer_of_isAtom {n : Node} (h : n.isAtom = true) : n.isContainer = false := by
  cases n with
  | mapping | sequence => cases h
  | _ => rfl

lemma Row.outlined_of_readEntry {line : List Char} {row : Row} (h : readEntry line = some row) :
    row.Outlined := by
  rw [readEntry] at h
  split at h
  · cases h
  · cases h
  · cases h
    dsimp only [Row.Outlined]
    split_ifs
    · exact ⟨rfl, nofun, trivial⟩
    · exact ⟨isContainer_of_isAtom (isAtom_readScalar _), .of_isAtom (isAtom_readScalar _)⟩

lemma Row.outlined_of_read? {line : List Char} {row : Row} (h : Row.read? line = some row) :
    row.Outlined := by
  rw [Row.read?] at h
  split at h
  · cases h
    trivial
  · split at h
    · cases h
      exact outlined_itemNode _
    · exact outlined_of_readEntry h

lemma outlined_marks (source : List Char) :
    ∀ mark ∈ marks source, ∀ row ∈ mark.2, row.Outlined := by
  intro mark hmark row hrow
  obtain ⟨raw, -, hraw⟩ := List.mem_filterMap.mp hmark
  rw [mark?] at hraw
  split at hraw
  · cases hraw
  · cases hraw
    exact Row.outlined_of_read? hrow

lemma finishSlots_insert (slots : List (String × Slot)) (key : String) (slot : Slot) :
    finishSlots (Fields.insert slots key slot) =
      Fields.insert (finishSlots slots) key slot.finish := by
  induction slots with
  | nil => rfl
  | cons field rest ih =>
    obtain ⟨k, other⟩ := field
    rw [finishSlots, Fields.insert, Fields.insert]
    split_ifs
    · rw [finishSlots]
    · rw [finishSlots, ih]

lemma mem_finishSlots {slots : List (String × Slot)} {key : String} {slot : Slot}
    (h : (key, slot) ∈ slots) : (key, slot.finish) ∈ finishSlots slots := by
  induction slots with
  | nil => cases h
  | cons field rest ih =>
    obtain ⟨k, other⟩ := field
    rw [finishSlots]
    cases h with
    | head => exact List.mem_cons_self
    | tail _ h => exact List.mem_cons_of_mem _ (ih h)

structure Block.Outlined (b : Block) : Prop where
  slots : (Node.mapping (finishSlots b.slots)).Outlined
  bucket : ∀ bucket ∈ b.bucket, (Node.sequence bucket.items).Outlined

lemma outlined_finish_pushItem {b : Block} (h : b.finish.Outlined) {item : Node}
    (hitem : item.OutlinedItem) : (b.pushItem item).finish.OutlinedValue := by
  have hlast : (Node.sequence [item]).Outlined :=
    outlined_sequence.mpr (List.forall_mem_singleton.mpr hitem)
  obtain ⟨slots, _ | bucket⟩ := b
  · exact .of_container rfl hlast
  · exact .of_container rfl (h.append hlast)

namespace Block.Outlined

lemma empty : Block.empty.Outlined := ⟨outlined_empty, fun _ h => by cases h⟩

variable {b : Block} (h : b.Outlined)
include h

lemma insert (key : String) {slot : Slot} (hslot : slot.finish.OutlinedValue) :
    (b.insert key slot).Outlined := by
  refine ⟨?_, h.bucket⟩
  rw [Block.insert, finishSlots_insert]
  exact h.slots.insert key hslot

lemma finish : b.finish.OutlinedValue := by
  obtain ⟨slots, _ | bucket⟩ := b
  · exact .of_container rfl h.slots
  · exact .of_container rfl (h.bucket bucket rfl)

lemma pushItem {item : Node} (hitem : item.OutlinedItem) : (b.pushItem item).Outlined := by
  have hlast : (Node.sequence [item]).Outlined :=
    outlined_sequence.mpr (List.forall_mem_singleton.mpr hitem)
  obtain ⟨slots, _ | bucket⟩ := b
  · refine ⟨h.slots, fun _ hm => ?_⟩
    cases hm
    exact hlast
  · refine ⟨h.slots, fun _ hm => ?_⟩
    cases hm
    exact (h.bucket bucket rfl).append hlast

lemma attach {item : Node} (hitem : item.OutlinedItem) : (b.attach item).Outlined := by
  rw [Block.attach]
  split
  · exact h.pushItem hitem
  · split
    case h_1 key slots bucket hlast =>
      have hslot := mem_finishSlots (List.mem_of_getLast? hlast)
      have hfinish := (outlined_mapping.mp h.slots).2 _ hslot
      exact h.insert key (outlined_finish_pushItem (b := ⟨slots, bucket⟩) hfinish.outlined hitem)
    case h_2 => exact h.pushItem hitem

end Block.Outlined

lemma outlined_build {b : Block} (h : b.Outlined) {marks : List Mark}
    (hmarks : ∀ mark ∈ marks, ∀ row ∈ mark.2, row.Outlined) : (build b marks).Outlined := by
  induction b, marks using build.induct with
  | case1 b => rwa [build]
  | case2 b indent rest ih =>
    rw [build]
    exact ih h (List.forall_mem_cons.mp hmarks).2
  | case3 b indent node rest ih =>
    obtain ⟨hrow, hrest⟩ := List.forall_mem_cons.mp hmarks
    rw [build]
    exact ih (h.attach (hrow _ rfl)) hrest
  | case4 b indent key value rest ih =>
    obtain ⟨hrow, hrest⟩ := List.forall_mem_cons.mp hmarks
    rw [build]
    exact ih (h.insert key (hrow _ rfl).2) hrest
  | case5 b indent key rest ihBody ihAfter =>
    obtain ⟨-, hrest⟩ := List.forall_mem_cons.mp hmarks
    have hbody := ihBody .empty fun mark hm => hrest mark ((List.takeWhile_prefix _).subset hm)
    rw [build]
    exact ihAfter (h.insert key hbody.finish) fun mark hm =>
      hrest mark ((List.dropWhile_suffix _).subset hm)

lemma outlined_parse (source : List Char) : (parse source).Outlined := by
  rw [parse_eq]
  exact (outlined_build .empty (outlined_marks source)).finish.outlined

end LayeredConfig.Outline
