import LayeredConfig.Proofs.Outline.WrittenLine

/-! A tree of plain data is read back from the document that is written for it. -/

namespace LayeredConfig.Outline

open Text

mutual

/-- Mappings of plain keys, lists of values on lines that are not empty, and values on lines. -/
def Writable : Node → Prop
  | .mapping fields => (Fields.keys fields).Nodup ∧ FieldsWritable fields
  | .sequence items => items ≠ [] ∧ ∀ item ∈ items, Inline item
  | n => Inline n

def FieldsWritable : List (String × Node) → Prop
  | [] => True
  | (key, value) :: rest => PlainKey key ∧ Writable value ∧ FieldsWritable rest

end

mutual

def rowsAt (depth : Nat) : Node → List Mark
  | .mapping fields => fieldRows depth fields
  | .sequence items => items.map fun item => (2 * depth, some (.item item))
  | _ => []

def fieldRows (depth : Nat) : List (String × Node) → List Mark
  | [] => []
  | (key, value) :: rest =>
    (if value.isContainer then (2 * depth, some (.header key)) :: rowsAt (depth + 1) value
      else [(2 * depth, some (.entry key value))]) ++ fieldRows depth rest

end

mutual

def slotOf : Node → Slot
  | .mapping fields => .nested (slotsOf fields) none
  | .sequence items => .nested [] (some ⟨items, 0⟩)
  | n => .value n

def slotsOf : List (String × Node) → List (String × Slot)
  | [] => []
  | (key, value) :: rest => (key, slotOf value) :: slotsOf rest

end

mutual

lemma finish_slotOf : (n : Node) → (slotOf n).finish = n
  | .mapping fields => congrArg Node.mapping (finishSlots_slotsOf fields)
  | .sequence _ => rfl
  | .null | .bool _ | .int _ | .float _ | .string _ | .expression _ | .tag _ _
  | .conditional _ _ => rfl

lemma finishSlots_slotsOf : (fields : List (String × Node)) → finishSlots (slotsOf fields) = fields
  | [] => rfl
  | (key, value) :: rest => by
    rw [slotsOf, finishSlots, finish_slotOf value, finishSlots_slotsOf rest]

end

lemma marks_append_cons {line : List Char} (hsolid : '\n' ∉ line)
    (hlast : ∀ c ∈ line.getLast?, isBlank c = false) (rest : List Char) :
    marks (line ++ '\n' :: rest) = (mark? line).toList ++ marks rest := by
  have hreturn : line.getLast? ≠ some '\r' := fun h => absurd (hlast _ h) (by decide)
  rw [marks, lines_append_cons hsolid hreturn, List.filterMap_cons]
  cases mark? line <;> rfl

lemma feed_not_mem_padding (depth : Nat) : '\n' ∉ padding depth :=
  fun h => absurd (List.eq_of_mem_replicate h) (by decide)

section

variable {key : String} (hkey : PlainKey key) (depth : Nat) (rest : List Char)
include hkey

lemma marks_headerLine : marks (headerLine depth key ++ '\n' :: rest) =
    (2 * depth, some (.header key)) :: marks rest := by
  have hfeed : '\n' ∉ key.toList := hkey.unmarked _ List.mem_cons_self
  have hlast : (headerLine depth key).getLast? = some ':' := List.getLast?_concat
  rw [marks_append_cons _ _ rest, mark?_headerLine hkey]
  · rfl
  · simpa [headerLine, hfeed] using feed_not_mem_padding depth
  · rw [hlast]
    rintro c ⟨⟩
    rfl

lemma marks_entryLine {value : Node} (hvalue : Inline value) :
    marks (entryLine depth key value ++ '\n' :: rest) =
      (2 * depth, some (.entry key value)) :: marks rest := by
  have hfeed : '\n' ∉ key.toList := hkey.unmarked _ List.mem_cons_self
  have hclosing := closing_scalarText hvalue
  have hlast : (entryLine depth key value).getLast? = (scalarText value).getLast? := by
    rw [entryLine, List.getLast?_append_of_ne_nil _ (List.cons_ne_nil _ _),
      hclosing.getLast?_cons_cons]
  rw [marks_append_cons _ _ rest, mark?_entryLine hkey hvalue]
  · rfl
  · simpa [entryLine, hfeed, hclosing.solid] using feed_not_mem_padding depth
  · rw [hlast]
    exact hclosing.last

end

lemma marks_itemLine {item : Node} (hitem : Inline item) (depth : Nat) (rest : List Char) :
    marks (itemLine depth item ++ '\n' :: rest) =
      (2 * depth, some (.item item)) :: marks rest := by
  have hclosing := closing_scalarText hitem
  have hlast : (itemLine depth item).getLast? = (scalarText item).getLast? := by
    rw [itemLine, List.getLast?_append_of_ne_nil _ (List.cons_ne_nil _ _),
      hclosing.getLast?_cons_cons]
  rw [marks_append_cons _ _ rest, mark?_itemLine hitem]
  · rfl
  · simpa [itemLine, hclosing.solid] using feed_not_mem_padding depth
  · rw [hlast]
    exact hclosing.last

lemma marks_writeItems {items : List Node} (h : ∀ item ∈ items, Inline item) (depth : Nat)
    (rest : List Char) : marks (writeItems depth items ++ rest) =
      items.map (fun item => (2 * depth, some (.item item))) ++ marks rest := by
  induction items with
  | nil => rfl
  | cons item items ih =>
    obtain ⟨hitem, hitems⟩ := List.forall_mem_cons.mp h
    rw [writeItems, List.append_assoc, List.cons_append, marks_itemLine hitem, ih hitems]
    rfl

lemma inline_of_writable {n : Node} (h : Writable n) (hcontainer : n.isContainer = false) :
    Inline n := by
  cases n with
  | mapping | sequence => cases hcontainer
  | _ => exact h

mutual

lemma marks_writeAt : (n : Node) → Writable n → n.isContainer → ∀ depth rest,
    marks (writeAt depth n ++ rest) = rowsAt depth n ++ marks rest
  | .mapping fields, h, _, depth, rest => marks_writeFields fields h.2 depth rest
  | .sequence _, h, _, depth, rest => marks_writeItems h.2 depth rest

lemma marks_writeFields : (fields : List (String × Node)) → FieldsWritable fields → ∀ depth rest,
    marks (writeFields depth fields ++ rest) = fieldRows depth fields ++ marks rest
  | [], _, _, _ => rfl
  | (key, value) :: fields, ⟨hkey, hvalue, hfields⟩, depth, rest => by
    have hrest := marks_writeFields fields hfields depth rest
    rw [writeFields, fieldRows]
    cases hcontainer : value.isContainer with
    | true =>
      have hbody := marks_writeAt value hvalue hcontainer (depth + 1)
        (writeFields depth fields ++ rest)
      simp only [if_true, List.append_assoc, List.cons_append, marks_headerLine hkey, hbody, hrest]
    | false =>
      have hinline := inline_of_writable hvalue hcontainer
      simp only [Bool.false_eq_true, if_false, List.append_assoc, List.cons_append,
        List.nil_append, marks_entryLine hkey _ _ hinline, hrest]

end

mutual

lemma le_of_mem_rowsAt : (n : Node) → ∀ {depth mark}, mark ∈ rowsAt depth n → 2 * depth ≤ mark.1
  | .mapping fields, _, _, h => le_of_mem_fieldRows fields h
  | .sequence items, depth, mark, h => by
    obtain ⟨item, -, rfl⟩ := List.mem_map.mp h
    exact Nat.le_refl _

lemma le_of_mem_fieldRows : (fields : List (String × Node)) → ∀ {depth mark},
    mark ∈ fieldRows depth fields → 2 * depth ≤ mark.1
  | (key, value) :: rest, depth, mark, h => by
    rw [fieldRows] at h
    obtain h | h := List.mem_append.mp h
    · split at h
      · obtain rfl | h := List.mem_cons.mp h
        · exact Nat.le_refl _
        · have hle := le_of_mem_rowsAt value h
          omega
      · obtain rfl := List.mem_singleton.mp h
        exact Nat.le_refl _
    · exact le_of_mem_fieldRows rest h

end

lemma bodyOf_append {indent : Nat} {body rest : List Mark} (hbody : ∀ mark ∈ body, indent < mark.1)
    (hrest : ∀ mark ∈ rest.head?, mark.1 ≤ indent) :
    bodyOf indent (body ++ rest) = body ∧ afterBody indent (body ++ rest) = rest := by
  have hall : ∀ mark ∈ body, decide (indent < mark.1) = true :=
    fun mark hm => decide_eq_true (hbody mark hm)
  have hstop : rest.takeWhile (indent < ·.1) = [] ∧ rest.dropWhile (indent < ·.1) = rest := by
    cases rest with
    | nil => exact ⟨rfl, rfl⟩
    | cons mark rest =>
      have hnot : ¬ indent < mark.1 := Nat.not_lt.mpr (hrest mark rfl)
      simp [hnot]
  constructor
  · rw [bodyOf, List.takeWhile_append_of_pos hall, hstop.1, List.append_nil]
  · rw [afterBody, List.dropWhile_append_of_pos hall, hstop.2]

lemma head?_fieldRows (depth : Nat) (fields : List (String × Node)) :
    ∀ mark ∈ (fieldRows depth fields).head?, mark.1 ≤ 2 * depth := by
  cases fields with
  | nil =>
    rintro mark ⟨⟩
  | cons field rest =>
    obtain ⟨key, value⟩ := field
    rw [fieldRows]
    cases value.isContainer <;> rintro mark ⟨⟩ <;> exact Nat.le_refl _

lemma build_items (depth : Nat) (items pending : List Node) :
    build ⟨[], some ⟨pending, 0⟩⟩ (items.map fun item => (2 * depth, some (.item item))) =
      ⟨[], some ⟨pending ++ items, 0⟩⟩ := by
  induction items generalizing pending with
  | nil => simp [build_nil]
  | cons item rest ih =>
    have hattach : Block.attach ⟨[], some ⟨pending, 0⟩⟩ item =
        ⟨[], some ⟨pending ++ [item], 0⟩⟩ := rfl
    rw [List.map_cons, build, hattach, ih, List.append_assoc]
    rfl

mutual

lemma build_rowsAt : (n : Node) → Writable n → n.isContainer → ∀ depth,
    (build .empty (rowsAt depth n)).toSlot = slotOf n
  | .mapping fields, h, _, depth => by
    have hnew : ∀ key ∈ Fields.keys fields, key ∉ Fields.keys ([] : Fields Slot) :=
      fun _ _ => List.not_mem_nil
    exact congrArg Block.toSlot (build_fieldRows fields h.2 h.1 depth [] hnew)
  | .sequence (item :: rest), _, _, depth => by
    have hattach : Block.attach .empty item = ⟨[], some ⟨[item], 0⟩⟩ := rfl
    rw [rowsAt, List.map_cons, build, hattach, build_items]
    rfl
  | .sequence [], h, _, _ => absurd rfl h.1

lemma build_fieldRows : (fields : List (String × Node)) → FieldsWritable fields →
    (Fields.keys fields).Nodup → ∀ depth (slots : Fields Slot),
      (∀ key ∈ Fields.keys fields, key ∉ Fields.keys slots) →
      build ⟨slots, none⟩ (fieldRows depth fields) = ⟨slots ++ slotsOf fields, none⟩
  | [], _, _, _, slots, _ => by rw [fieldRows, build_nil, slotsOf, List.append_nil]
  | (key, value) :: rest, ⟨_, hvalue, hrest⟩, hnodup, depth, slots, hnew => by
    obtain ⟨hkey, hnodup⟩ := List.nodup_cons.mp hnodup
    obtain ⟨hfresh, hnew⟩ := List.forall_mem_cons.mp hnew
    have hnew' : ∀ other ∈ Fields.keys rest,
        other ∉ Fields.keys (slots ++ [(key, slotOf value)]) := by
      intro other hother hmem
      rw [Fields.keys, List.map_append, List.mem_append] at hmem
      obtain hmem | hmem := hmem
      · exact hnew other hother hmem
      · obtain rfl := List.mem_singleton.mp hmem
        exact hkey hother
    have hih := build_fieldRows rest hrest hnodup depth _ hnew'
    have hinsert : Block.insert ⟨slots, none⟩ key (slotOf value) =
        ⟨slots ++ [(key, slotOf value)], none⟩ := by
      rw [Block.insert, Fields.insert_of_not_mem hfresh]
    rw [fieldRows, slotsOf]
    cases hcontainer : value.isContainer with
    | true =>
      have hdeeper : ∀ mark ∈ rowsAt (depth + 1) value, 2 * depth < mark.1 := by
        intro mark hm
        have hle := le_of_mem_rowsAt value hm
        omega
      obtain ⟨hbody, hafter⟩ := bodyOf_append hdeeper (head?_fieldRows depth rest)
      rw [if_pos rfl, List.cons_append, build, hbody, hafter,
        build_rowsAt value hvalue hcontainer, hinsert, hih, List.append_assoc]
      rfl
    | false =>
      have hslot : Slot.value value = slotOf value := by
        cases value with
        | mapping | sequence => cases hcontainer
        | _ => rfl
      rw [if_neg Bool.false_ne_true, List.cons_append, build, hslot, hinsert, List.nil_append, hih,
        List.append_assoc]
      rfl

end

theorem parse_write {n : Node} (hroot : n.kind = .object) (h : Writable n) :
    parse? (write n).toList = .ok n := by
  have hcontainer : n.isContainer := by
    cases n with
    | mapping fields => rfl
    | _ => cases hroot
  have hmarks : marks (writeAt 0 n) = rowsAt 0 n := by
    have hrest := marks_writeAt n h hcontainer 0 []
    rwa [List.append_nil, show marks [] = [] from rfl, List.append_nil] at hrest
  rw [parse?_eq_ok, parse_eq, write, String.toList_ofList, hmarks, Block.finish,
    build_rowsAt n h hcontainer, finish_slotOf]

def plainSample : Node := .mapping [
  ("app", .mapping [
    ("name", .string "- if \"a\": #"),
    ("-deep", .mapping [("empty", .mapping []), ("low", .int (-9223372036854775808))])]),
  ("a list", .sequence [.string "", .bool true, .int 7]),
  ("--", .bool false)]

theorem parse_write_sample : Writable plainSample ∧
    write plainSample = "app:\n  name: \"- if \"a\": #\"\n  -deep:\n    empty:\n" ++
      "    low: -9223372036854775808\na list:\n  - \"\"\n  - true\n  - 7\n--: false\n" ∧
    parse? (write plainSample).toList = .ok plainSample := by
  have h : Writable plainSample := by
    simp only [plainSample, Writable, FieldsWritable, Fields.keys, List.map_cons, List.map_nil,
      List.forall_mem_cons, List.not_mem_nil, false_implies, implies_true, ne_eq, reduceCtorEq,
      not_false_eq_true, Inline]
    decide +kernel
  exact ⟨h, by cbv, parse_write rfl h⟩

end LayeredConfig.Outline
