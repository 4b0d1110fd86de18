import LayeredConfig.Proofs.Outline.Layout
import LayeredConfig.Proofs.Outline.Ledger
import LayeredConfig.Proofs.Outline.Writing

/-! List items that stand right below a header and no deeper than it. -/

namespace LayeredConfig.Outline

open Text

def sectionAt (indent : Nat) (before : List (List Char)) : Except Underflow Block := do
  match ← close indent 0 (← readLines 1 [.root] before) with
  | [] => throw ⟨0⟩
  | frame :: _ => return frame.block

/-- With a header of this key the key becomes the last one. It is new, or it is the last one already
and no item has opened the list of the section behind it. -/
structure Block.Newest (b : Block) (key : String) : Prop where
  last : key ∉ Fields.keys b.slots.dropLast
  behind : key ∈ Fields.keys b.slots → b.bucketIsLast = false

def deepen (raw : List Char) : List Char := if isSkipped (trim raw) then raw else ' ' :: raw

lemma mark?_deepen (raw : List Char) : mark? (deepen raw) = (mark? raw).map (stretch (· + 1)) := by
  have hplace : Places [' '] := by decide
  have htrim : trim (' ' :: raw) = trim raw := trim_blanks_append hplace.blanks raw
  have hindent : indentOf (' ' :: raw) = indentOf raw + 1 := by
    rw [Nat.add_comm]
    exact indentOf_places hplace raw
  rw [deepen]
  by_cases hskip : isSkipped (trim raw) = true
  · rw [if_pos hskip, mark?, if_pos hskip]
    rfl
  · rw [if_neg hskip, mark?, mark?, htrim, if_neg hskip, if_neg hskip, hindent]
    rfl

def itemMarks (indent : Nat) (items : List Node) : List Mark :=
  items.map fun item => (indent, some (.item item))

lemma itemMarks_deepen (indent : Nat) (items : List Node) :
    (itemMarks indent items).map (stretch (· + 1)) = itemMarks (indent + 1) items := by
  rw [itemMarks, itemMarks, List.map_map]
  rfl

namespace Block

variable {b : Block} {key : String}

lemma getLast?_insert (h : key ∉ Fields.keys b.slots.dropLast) (slot : Slot) :
    (b.insert key slot).slots.getLast? = some (key, slot) := by
  obtain ⟨slots, bucket⟩ := b
  obtain rfl | ⟨front, ⟨k, other⟩, rfl⟩ := List.eq_nil_or_concat' slots
  · rfl
  · rw [List.dropLast_concat] at h
    rw [Block.insert, Fields.insert_append_of_not_mem h, Fields.insert]
    split
    · exact List.getLast?_concat
    · exact List.getLast?_append_cons front (k, other) [(key, slot)]

lemma bucketIsLast_insert_of_mem (h : key ∈ Fields.keys b.slots) (slot : Slot) :
    (b.insert key slot).bucketIsLast = b.bucketIsLast := by
  have hkeys : Fields.keys (b.insert key slot).slots = Fields.keys b.slots := by
    rw [Block.insert, Fields.keys_insert, if_pos h]
  have hlength := congrArg List.length hkeys
  rw [Fields.keys, Fields.keys, List.length_map, List.length_map] at hlength
  rw [bucketIsLast, bucketIsLast, hlength]
  rfl

lemma bucketIsLast_insert (hplaced : b.Placed) (h : b.Newest key) (slot : Slot) :
    (b.insert key slot).bucketIsLast = false := by
  by_cases hkey : key ∈ Fields.keys b.slots
  · rw [bucketIsLast_insert_of_mem hkey, h.behind hkey]
  · obtain ⟨slots, _ | bucket⟩ := b
    · rfl
    · have hle : bucket.position ≤ slots.length := hplaced bucket rfl
      have hne : bucket.position ≠ (slots ++ [(key, slot)]).length := by
        rw [List.length_append, List.length_singleton]
        omega
      rw [bucketIsLast, Block.insert, Fields.insert_of_not_mem hkey]
      exact beq_false_of_ne hne

lemma Newest.attach (hplaced : b.Placed) (h : b.Newest key) (inner : Block) (item : Node) :
    (b.insert key inner.toSlot).attach item = b.insert key (inner.pushItem item).toSlot := by
  rw [Block.attach, bucketIsLast_insert hplaced h, getLast?_insert h.last]
  exact Block.insert_insert b key _ _

lemma Newest.foldl_attach (hplaced : b.Placed) (h : b.Newest key) (inner : Block)
    (items : List Node) :
    items.foldl Block.attach (b.insert key inner.toSlot) =
      b.insert key (items.foldl Block.pushItem inner).toSlot := by
  induction items generalizing inner with
  | nil => rfl
  | cons item rest ih => rw [List.foldl_cons, h.attach hplaced, ih, List.foldl_cons]

lemma toSlot_pushItem_ne (b : Block) (item : Node) : (b.pushItem item).toSlot ≠ b.toSlot := by
  obtain ⟨slots, _ | bucket⟩ := b
  · exact nofun
  · intro h
    obtain ⟨-, hbucket⟩ := Slot.nested.inj h
    have hlength := congrArg (fun bucket => bucket.items.length) (Option.some.inj hbucket)
    simp at hlength

lemma not_mem_dropLast (hnodup : (Fields.keys b.slots).Nodup) {slot other : Slot}
    (hlast : (b.insert key slot).slots.getLast? = some (key, other)) :
    key ∉ Fields.keys b.slots.dropLast := by
  intro hmem
  obtain ⟨slots, bucket⟩ := b
  obtain rfl | ⟨front, ⟨k, v⟩, rfl⟩ := List.eq_nil_or_concat' slots
  · exact absurd hmem List.not_mem_nil
  · have hsplit : Fields.keys (front ++ [(k, v)]) = Fields.keys front ++ [k] := List.map_append
    rw [List.dropLast_concat] at hmem
    have hkeys := Fields.keys_insert (front ++ [(k, v)]) key slot
    rw [hsplit, if_pos (List.mem_append_left _ hmem)] at hkeys
    -- The last key stays the last one, so the header has it.
    have hend := congrArg List.getLast? hkeys
    rw [Fields.keys, List.getLast?_map, List.getLast?_concat] at hend
    have hk : key = k := Option.some.inj ((congrArg _ hlast).symm.trans hend)
    rw [hsplit, List.nodup_append] at hnodup
    exact hnodup.2.2 key hmem k (List.mem_singleton_self k) hk

lemma newest_of_attach (hnodup : (Fields.keys b.slots).Nodup) {inner : Block} {item : Node}
    (hattach : (b.insert key inner.toSlot).attach item = b.insert key (inner.pushItem item).toSlot) :
    b.Newest key := by
  have hget : Fields.get? ((b.insert key inner.toSlot).attach item).slots key ≠
      some inner.toSlot := by
    rw [hattach, Block.insert, Fields.get?_insert, if_pos rfl]
    exact fun h => toSlot_pushItem_ne inner item (Option.some.inj h)
  have hkeep : Fields.get? (b.insert key inner.toSlot).slots key = some inner.toSlot := by
    rw [Block.insert, Fields.get?_insert, if_pos rfl]
  rw [Block.attach] at hget
  split at hget
  · exact absurd hkeep hget
  · rename_i hbehind
    split at hget
    · rename_i k slots bucket hlast
      by_cases hk : k = key
      · subst hk
        refine ⟨not_mem_dropLast hnodup hlast, fun hmem => ?_⟩
        rw [← bucketIsLast_insert_of_mem hmem inner.toSlot]
        exact Bool.eq_false_iff.mpr hbehind
      · rw [Block.insert, Fields.get?_insert, if_neg (Ne.symm hk)] at hget
        exact absurd hkeep hget
    · exact absurd hkeep hget

theorem attach_header_iff (hplaced : b.Placed) (hnodup : (Fields.keys b.slots).Nodup)
    (inner : Block) (item : Node) :
    (b.insert key inner.toSlot).attach item = b.insert key (inner.pushItem item).toSlot ↔
      b.Newest key :=
  ⟨newest_of_attach hnodup, fun h => h.attach hplaced inner item⟩

end Block

lemma build_itemMarks (b : Block) (indent : Nat) (items : List Node) :
    build b (itemMarks indent items) = items.foldl Block.attach b := by
  induction items generalizing b with
  | nil => exact build_nil b
  | cons item rest ih => rw [itemMarks, List.map_cons, build, ← itemMarks, ih, List.foldl_cons]

lemma foldl_attach_empty (items : List Node) :
    items.foldl Block.attach .empty = items.foldl Block.pushItem .empty := by
  have hpush : ∀ (bucket : Option Bucket) (item : Node), Block.attach ⟨[], bucket⟩ item =
      Block.pushItem ⟨[], bucket⟩ item := by
    intro bucket item
    rw [Block.attach]
    split <;> rfl
  have hall : ∀ bucket : Option Bucket, items.foldl Block.attach ⟨[], bucket⟩ =
      items.foldl Block.pushItem ⟨[], bucket⟩ := by
    induction items with
    | nil => exact fun _ => rfl
    | cons item rest ih =>
      intro bucket
      rw [List.foldl_cons, hpush]
      exact ih _
  exact hall none

lemma unwind_itemMarks {frame : Frame} {indent : Nat} (hle : frame.level ≤ indent)
    (items : List Node) (marks : List Mark) (rest : List Frame) :
    unwind frame (itemMarks indent items ++ marks) rest =
      unwind { frame with block := items.foldl Block.attach frame.block } marks rest := by
  induction items generalizing frame with
  | nil => rfl
  | cons item items ih =>
    rw [itemMarks, List.map_cons, List.cons_append, ← itemMarks,
      unwind_cons hle (frame.block.attach item) fun marks => by rw [build]]
    exact ih hle

section

variable {frames after : List Frame} (h : ∀ frame ∈ frames, frame.block.Placed)
include h

lemma close_placed {indent : Int} {line : Nat} (hclose : close indent line frames = .ok after) :
    ∀ frame ∈ after, frame.block.Placed := by
  cases frames with
  | nil =>
    cases hclose
    exact h
  | cons frame rest =>
    rw [close] at hclose
    induction rest generalizing frame with
    | nil =>
      rw [closeFrame] at hclose
      split at hclose
      · cases hclose
      · cases hclose
        exact h
    | cons outer rest ih =>
      obtain ⟨hframe, houter, hrest⟩ := List.forall_mem_cons.mp h |>.imp_right List.forall_mem_cons.mp
      rw [closeFrame] at hclose
      split at hclose
      · exact ih _ (List.forall_mem_cons.mpr ⟨houter.insert _ _, hrest⟩) hclose
      · cases hclose
        exact h

lemma place_placed {indent : Int} {line : Nat} {row : Row}
    (hplace : place indent line row frames = .ok after) :
    ∀ frame ∈ after, frame.block.Placed := by
  cases frames with
  | nil => cases hplace
  | cons frame rest =>
    obtain ⟨hframe, hrest⟩ := List.forall_mem_cons.mp h
    cases row with
    | header key =>
      cases hplace
      exact List.forall_mem_cons.mpr
        ⟨.empty, List.forall_mem_cons.mpr ⟨hframe.insert key _, hrest⟩⟩
    | item node =>
      cases hplace
      exact List.forall_mem_cons.mpr ⟨hframe.attach node, hrest⟩
    | entry key value =>
      cases hplace
      exact List.forall_mem_cons.mpr ⟨hframe.insert key _, hrest⟩

lemma readLine_placed {line : Nat} {raw : List Char}
    (hread : readLine line frames raw = .ok after) : ∀ frame ∈ after, frame.block.Placed := by
  rw [readLine] at hread
  split at hread
  · cases hread
    exact h
  · obtain ⟨between, hclose, hread⟩ := bind_eq_ok.mp hread
    have hbetween := close_placed h hclose
    split at hread
    · exact place_placed hbetween hread
    · cases hread
      exact hbetween

lemma readLines_placed {line : Nat} {raws : List (List Char)}
    (hread : readLines line frames raws = .ok after) : ∀ frame ∈ after, frame.block.Placed := by
  induction raws generalizing frames line with
  | nil =>
    cases hread
    exact h
  | cons raw raws ih =>
    obtain ⟨between, hline, hread⟩ := bind_eq_ok.mp hread
    exact ih (readLine_placed h hline) hread

end

lemma exists_section (indent : Nat) (before : List (List Char)) :
    ∃ (frame : Frame) (rest : List Frame), sectionAt indent before = .ok frame.block ∧
      frame.block.Placed ∧ frame.level ≤ indent ∧
      ∀ row marks, build .empty (before.filterMap mark? ++ (indent, row) :: marks) =
        unwind frame ((indent, row) :: marks) rest := by
  have hroot : Rooted .root [] := rfl
  obtain ⟨top, below, hlines, hrooted, hunwind⟩ := readLines_unwind hroot 1 before
  obtain ⟨frame, rest, hclose, -, hle, hrest⟩ := closeFrame_unwind hrooted indent 0
  have hclose : close indent 0 (top :: below) = .ok (frame :: rest) := hclose
  have hplaced : ∀ frame ∈ [Frame.root], frame.block.Placed :=
    List.forall_mem_singleton.mpr .empty
  refine ⟨frame, rest, ?_, close_placed (readLines_placed hplaced hlines) hclose frame
    List.mem_cons_self, hle, fun row marks => ?_⟩
  · rw [sectionAt, hlines]
    simp only [bind, Except.bind, hclose]
    rfl
  · rw [← hrest, ← hunwind]
    rfl

lemma head?_itemMarks_append {indent : Nat} (items : List Node) {marks : List Mark}
    (h : ∀ mark ∈ marks.head?, mark.1 ≤ indent) :
    ∀ mark ∈ (itemMarks indent items ++ marks).head?, mark.1 ≤ indent := by
  cases items with
  | nil => exact h
  | cons item rest =>
    rintro mark ⟨⟩
    exact Nat.le_refl _

lemma build_deepen (indent : Nat) (key : String) (before : List (List Char)) :
    ∃ block, sectionAt indent before = .ok block ∧ (block.Newest key →
      ∀ items (marks : List Mark), (∀ mark ∈ marks.head?, mark.1 ≤ indent) →
        build .empty (before.filterMap mark? ++
            (indent, some (.header key)) :: (itemMarks (indent + 1) items ++ marks)) =
          build .empty (before.filterMap mark? ++
            (indent, some (.header key)) :: (itemMarks indent items ++ marks))) := by
  obtain ⟨frame, rest, hsection, hplaced, hle, hunwind⟩ := exists_section indent before
  refine ⟨frame.block, hsection, fun hnewest items marks hmarks => ?_⟩
  have hdeep : ∀ mark ∈ itemMarks (indent + 1) items, indent < mark.1 := by
    intro mark hm
    obtain ⟨item, -, rfl⟩ := List.mem_map.mp hm
    exact Nat.lt_succ_self indent
  obtain ⟨hbody, hafter⟩ := bodyOf_append hdeep hmarks
  obtain ⟨hnone, hall⟩ := bodyOf_append (List.forall_mem_nil _) (head?_itemMarks_append items hmarks)
  rw [List.nil_append] at hnone hall
  have hlevel : (frame.insert key Block.empty.toSlot).level ≤ indent := hle
  have hattach := hnewest.foldl_attach hplaced .empty items
  rw [hunwind, hunwind, unwind_header hle, unwind_header hle, hbody, hafter, hnone, hall, build_nil,
    unwind_itemMarks hlevel, build_itemMarks, foldl_attach_empty]
  exact congrArg (fun block => unwind { frame with block } marks rest) hattach.symm

structure ListBelow where
  before : List (List Char)
  header : List Char
  indent : Nat
  key : String
  run : List (List Char)
  items : List Node
  after : List (List Char)
  mark_header : mark? header = some (indent, some (.header key))
  marks_run : run.filterMap mark? = itemMarks indent items
  marks_after : ∀ mark ∈ (after.filterMap mark?).head?, mark.1 ≤ indent

namespace ListBelow

def lines (list : ListBelow) : List (List Char) :=
  list.before ++ list.header :: (list.run ++ list.after)

def deepened (list : ListBelow) : List (List Char) :=
  list.before ++ list.header :: (list.run.map deepen ++ list.after)

end ListBelow

/-- Where the key of a header becomes the last one, a list at its own indentation is the list of its
section as if it stood deeper. -/
theorem parse?_deepened (list : ListBelow) {source other : List Char}
    (hsource : lines source = list.lines) (hother : lines other = list.deepened) :
    ∃ block, sectionAt list.indent list.before = .ok block ∧
      (block.Newest list.key → parse? other = parse? source) := by
  obtain ⟨block, hsection, hbuild⟩ := build_deepen list.indent list.key list.before
  refine ⟨block, hsection, fun hnewest => ?_⟩
  have hdeep : (list.run.map deepen).filterMap mark? = itemMarks (list.indent + 1) list.items := by
    rw [List.filterMap_map, ← itemMarks_deepen, ← list.marks_run, List.map_filterMap]
    exact congrArg (List.filterMap · list.run) (funext mark?_deepen)
  rw [parse?_eq_buildLines, parse?_eq_buildLines, hsource, hother, buildLines, buildLines,
    ListBelow.lines, ListBelow.deepened]
  simp only [List.filterMap_append, List.filterMap_cons, list.mark_header, list.marks_run, hdeep]
  rw [hbuild hnewest list.items _ list.marks_after]

def lastKey : ListBelow where
  before := ["top:", "  x: 1", "  list: 5"].map String.toList
  header := "  list:".toList
  indent := 2
  key := "list"
  run := ["# note", "  - a", "  - if $b: c"].map String.toList
  items := [.string "a", .conditional "$b" (.string "c")]
  after := ["end: 2".toList]
  mark_header := by cbv
  marks_run := by cbv
  marks_after := by
    have hend : mark? "end: 2".toList = some (0, some (.entry "end" (.int 2))) := by cbv
    rw [List.filterMap_cons, hend]
    rintro mark ⟨⟩
    exact Nat.zero_le _

def lastKeyText : String := "top:\n  x: 1\n  list: 5\n  list:\n# note\n  - a\n  - if $b: c\nend: 2\n"

def lastKeyDeepened : String :=
  "top:\n  x: 1\n  list: 5\n  list:\n# note\n   - a\n   - if $b: c\nend: 2\n"

theorem parse?_deepened_last :
    lines lastKeyText.toList = lastKey.lines ∧ lines lastKeyDeepened.toList = lastKey.deepened ∧
    ∃ block, sectionAt lastKey.indent lastKey.before = .ok block ∧ block.Newest lastKey.key ∧
      parse? lastKeyDeepened.toList = parse? lastKeyText.toList := by
  have hsource : lines lastKeyText.toList = lastKey.lines := by cbv
  have hother : lines lastKeyDeepened.toList = lastKey.deepened := by cbv
  have hsection : sectionAt lastKey.indent lastKey.before =
      .ok ⟨[("x", .value (.int 1)), ("list", .value (.int 5))], none⟩ := by cbv
  have hnewest : Block.Newest ⟨[("x", .value (.int 1)), ("list", .value (.int 5))], none⟩
      lastKey.key := ⟨by decide, fun _ => rfl⟩
  obtain ⟨block, hblock, hparse⟩ := parse?_deepened lastKey hsource hother
  obtain rfl := Except.ok.inj (hsection.symm.trans hblock)
  exact ⟨hsource, hother, _, hsection, hnewest, hparse hnewest⟩

def earlierKey : ListBelow where
  before := ["a: 1", "b: 2"].map String.toList
  header := "a:".toList
  indent := 0
  key := "a"
  run := ["- x".toList]
  items := [.string "x"]
  after := []
  mark_header := by cbv
  marks_run := by cbv
  marks_after := nofun

def keyBeforeList : ListBelow where
  before := ["a: 1", "- x"].map String.toList
  header := "a:".toList
  indent := 0
  key := "a"
  run := ["- y".toList]
  items := [.string "y"]
  after := []
  mark_header := by cbv
  marks_run := by cbv
  marks_after := nofun

theorem parse?_deepened_differs :
    (lines "a: 1\nb: 2\na:\n- x\n".toList = earlierKey.lines ∧
      lines "a: 1\nb: 2\na:\n - x\n".toList = earlierKey.deepened ∧
      parse? "a: 1\nb: 2\na:\n- x\n".toList = .ok (.sequence [.string "x"]) ∧
      parse? "a: 1\nb: 2\na:\n - x\n".toList =
        .ok (.mapping [("a", .sequence [.string "x"]), ("b", .int 2)])) ∧
    (lines "a: 1\n- x\na:\n- y\n".toList = keyBeforeList.lines ∧
      lines "a: 1\n- x\na:\n - y\n".toList = keyBeforeList.deepened ∧
      parse? "a: 1\n- x\na:\n- y\n".toList = .ok (.sequence [.string "x", .string "y"]) ∧
      parse? "a: 1\n- x\na:\n - y\n".toList = .ok (.sequence [.string "x"])) := by
  refine ⟨⟨?_, ?_, ?_, ?_⟩, ?_, ?_, ?_, ?_⟩
  all_goals cbv

end LayeredConfig.Outline
