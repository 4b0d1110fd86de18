import LayeredConfig.Proofs.Outline.Descent

/-! Sections whose list items stand among the entries, under a key of their own that comes in with
the first item and stays where it is. -/

namespace LayeredConfig.Outline

inductive Key where
  | named (name : String)
  | list
  deriving DecidableEq

inductive Cell where
  | value (node : Node)
  | items (nodes : List Node)
  | nested (cells : List (Key × Cell))

abbrev Ledger := List (Key × Cell)

namespace Ledger

def put (ledger : Ledger) (key : Key) (cell : Cell) : Ledger :=
  match ledger with
  | [] => [(key, cell)]
  | (k, c) :: rest => if k = key then (key, cell) :: rest else (k, c) :: put rest key cell

def items? : Ledger → Option (List Node)
  | [] => none
  | (.list, .items nodes) :: _ => some nodes
  | _ :: rest => items? rest

def append (ledger : Ledger) (item : Node) : Ledger :=
  ledger.put .list (.items (ledger.items?.getD [] ++ [item]))

def attach (ledger : Ledger) (item : Node) : Ledger :=
  match ledger.getLast? with
  | some (.list, _) => ledger.append item
  | some (.named name, .nested cells) => ledger.put (.named name) (.nested (append cells item))
  | _ => ledger.append item

end Ledger

mutual

def Cell.finish : Cell → Node
  | .value node => node
  | .items nodes => .sequence nodes
  | .nested cells =>
    match Ledger.items? cells with
    | some nodes => .sequence nodes
    | none => .mapping (finishCells cells)

def finishCells : List (Key × Cell) → List (String × Node)
  | [] => []
  | (.named name, cell) :: rest => (name, cell.finish) :: finishCells rest
  | (.list, _) :: rest => finishCells rest

end

def Ledger.finish (ledger : Ledger) : Node := (Cell.nested ledger).finish

inductive Step where
  | value (key : String) (node : Node)
  | nested (key : String) (steps : List Step)
  | item (node : Node)

mutual

def Block.step (b : Block) : Step → Block
  | .value key node => b.insert key (.value node)
  | .nested key steps => b.insert key (Block.empty.run steps).toSlot
  | .item node => b.attach node

def Block.run (b : Block) : List Step → Block
  | [] => b
  | step :: rest => (b.step step).run rest

end

mutual

def Ledger.step (ledger : Ledger) : Step → Ledger
  | .value key node => ledger.put (.named key) (.value node)
  | .nested key steps => ledger.put (.named key) (.nested (Ledger.run [] steps))
  | .item node => ledger.attach node

def Ledger.run (ledger : Ledger) : List Step → Ledger
  | [] => ledger
  | step :: rest => (ledger.step step).run rest

end

def withBucket (ledger : Ledger) : Option Bucket → Ledger
  | none => ledger
  | some bucket =>
    ledger.take bucket.position ++ (.list, .items bucket.items) :: ledger.drop bucket.position

mutual

def Slot.cell : Slot → Cell
  | .value node => .value node
  | .nested slots bucket => .nested (withBucket (cellsOf slots) bucket)

def cellsOf : List (String × Slot) → Ledger
  | [] => []
  | (key, slot) :: rest => (.named key, slot.cell) :: cellsOf rest

end

def Block.ledger (b : Block) : Ledger := withBucket (cellsOf b.slots) b.bucket

def Block.Placed (b : Block) : Prop := ∀ bucket ∈ b.bucket, bucket.position ≤ b.slots.length

lemma cellsOf_eq (slots : Fields Slot) :
    cellsOf slots = slots.map fun (key, slot) => (.named key, slot.cell) := by
  induction slots with
  | nil => rfl
  | cons field rest ih => rw [cellsOf, ih, List.map_cons]

lemma length_cellsOf (slots : Fields Slot) : (cellsOf slots).length = slots.length := by
  rw [cellsOf_eq, List.length_map]

lemma named_of_mem_cellsOf {slots : Fields Slot} {field : Key × Cell} (h : field ∈ cellsOf slots) :
    field.1 ≠ .list := by
  rw [cellsOf_eq] at h
  obtain ⟨slot, -, rfl⟩ := List.mem_map.mp h
  exact nofun

section

variable {ledger : Ledger} (h : ∀ field ∈ ledger, field.1 ≠ .list)
include h

lemma items?_append (rest : Ledger) : Ledger.items? (ledger ++ rest) = Ledger.items? rest := by
  induction ledger with
  | nil => rfl
  | cons field tail ih =>
    obtain ⟨hfield, htail⟩ := List.forall_mem_cons.mp h
    obtain ⟨_ | _, cell⟩ := field
    · exact ih htail
    · exact absurd rfl hfield

lemma put_list_append (rest : Ledger) (cell : Cell) :
    Ledger.put (ledger ++ rest) .list cell = ledger ++ Ledger.put rest .list cell := by
  induction ledger with
  | nil => rfl
  | cons field tail ih =>
    obtain ⟨hfield, htail⟩ := List.forall_mem_cons.mp h
    rw [List.cons_append, Ledger.put, if_neg hfield, ih htail, List.cons_append]

end

lemma items?_withBucket (slots : Fields Slot) (bucket : Bucket) :
    Ledger.items? (withBucket (cellsOf slots) (some bucket)) = some bucket.items := by
  rw [withBucket, items?_append]
  · rfl
  · exact fun field hm => named_of_mem_cellsOf (List.mem_of_mem_take hm)

lemma items?_cellsOf (slots : Fields Slot) : Ledger.items? (cellsOf slots) = none := by
  have hnamed : ∀ field ∈ cellsOf slots, field.1 ≠ .list := fun _ => named_of_mem_cellsOf
  have hnone := items?_append hnamed []
  rwa [List.append_nil] at hnone

lemma cellsOf_insert (slots : Fields Slot) (key : String) (slot : Slot) :
    cellsOf (Fields.insert slots key slot) = Ledger.put (cellsOf slots) (.named key) slot.cell := by
  induction slots with
  | nil => rfl
  | cons field rest ih =>
    obtain ⟨k, other⟩ := field
    rw [Fields.insert, cellsOf, Ledger.put]
    by_cases hk : k = key
    · rw [if_pos hk, if_pos (congrArg Key.named hk), cellsOf]
    · rw [if_neg hk, if_neg (mt Key.named.inj hk), cellsOf, ih]

lemma put_place {ledger : Ledger} {position : Nat} (h : position ≤ ledger.length) {name : String}
    (cell items : Cell) :
    Ledger.put (ledger.take position ++ (.list, items) :: ledger.drop position) (.named name) cell =
      (ledger.put (.named name) cell).take position ++
        (.list, items) :: (ledger.put (.named name) cell).drop position := by
  -- An entry that comes or changes leaves the list where it is.
  induction ledger generalizing position with
  | nil =>
    obtain rfl := Nat.le_zero.mp h
    rfl
  | cons field rest ih =>
    obtain ⟨k, c⟩ := field
    cases position with
    | zero => rfl
    | succ position =>
      have hrest := ih (Nat.le_of_succ_le_succ h)
      rw [List.take_succ_cons, List.drop_succ_cons, List.cons_append, Ledger.put, Ledger.put]
      split
      · rfl
      · rw [hrest]
        rfl

lemma ledger_insert {b : Block} (h : b.Placed) (key : String) (slot : Slot) :
    (b.insert key slot).ledger = b.ledger.put (.named key) slot.cell := by
  obtain ⟨slots, bucket⟩ := b
  rw [Block.insert, Block.ledger, Block.ledger, cellsOf_insert]
  cases bucket with
  | none => rfl
  | some bucket =>
    have hplace : bucket.position ≤ (cellsOf slots).length := by
      rw [length_cellsOf]
      exact h bucket rfl
    exact (put_place hplace _ _).symm

lemma ledger_pushItem (b : Block) (item : Node) :
    (b.pushItem item).ledger = b.ledger.append item := by
  obtain ⟨slots, _ | bucket⟩ := b
  · have hnamed : ∀ field ∈ cellsOf slots, field.1 ≠ .list := fun _ => named_of_mem_cellsOf
    have hput := put_list_append hnamed [] (.items [item])
    rw [List.append_nil] at hput
    rw [Block.ledger, Block.ledger, withBucket, Ledger.append, items?_cellsOf]
    simp only [Block.pushItem, withBucket]
    rw [← length_cellsOf, List.take_length, List.drop_length]
    exact hput.symm
  · have htake : ∀ field ∈ (cellsOf slots).take bucket.position, field.1 ≠ .list :=
      fun _ hm => named_of_mem_cellsOf (List.mem_of_mem_take hm)
    rw [Ledger.append, Block.ledger, Block.ledger, items?_withBucket, withBucket,
      put_list_append htake]
    rfl

lemma getLast?_cellsOf (slots : Fields Slot) :
    (cellsOf slots).getLast? = slots.getLast?.map fun (key, slot) => (.named key, slot.cell) := by
  rw [cellsOf_eq, List.getLast?_map]

lemma getLast?_ledger {b : Block} (h : b.Placed) :
    b.ledger.getLast? =
      if b.bucketIsLast then b.bucket.map fun bucket => (.list, .items bucket.items)
      else (cellsOf b.slots).getLast? := by
  -- The list is the last key exactly while no entry has come since its first item.
  obtain ⟨slots, _ | bucket⟩ := b
  · rfl
  · have hle : bucket.position ≤ (cellsOf slots).length := by
      rw [length_cellsOf]
      exact h bucket rfl
    rw [Block.ledger, withBucket, Block.bucketIsLast, ← length_cellsOf]
    by_cases hlast : bucket.position = (cellsOf slots).length
    · rw [if_pos (beq_iff_eq.mpr hlast), hlast, List.drop_length]
      exact List.getLast?_concat
    · have hne : (cellsOf slots).drop bucket.position ≠ [] := by
        rw [ne_eq, List.drop_eq_nil_iff]
        omega
      rw [if_neg (mt beq_iff_eq.mp hlast), List.getLast?_append_cons,
        List.getLast?_cons_of_ne_nil hne, List.getLast?_drop, if_neg (by omega)]

namespace Block.Placed

lemma empty : Block.empty.Placed := nofun

variable {b : Block} (h : b.Placed)
include h

lemma insert (key : String) (slot : Slot) : (b.insert key slot).Placed := fun bucket hbucket =>
  (h bucket hbucket).trans (Fields.length_le_insert b.slots key slot)

lemma pushItem (item : Node) : (b.pushItem item).Placed := by
  obtain ⟨slots, _ | bucket⟩ := b
  · rintro _ ⟨⟩
    exact Nat.le_refl _
  · rintro _ ⟨⟩
    exact h bucket rfl

lemma attach (item : Node) : (b.attach item).Placed := by
  rw [Block.attach]
  split
  · exact h.pushItem item
  · split
    · exact h.insert _ _
    · exact h.pushItem item

end Block.Placed

lemma ledger_attach {b : Block} (h : b.Placed) (item : Node) :
    (b.attach item).ledger = b.ledger.attach item := by
  have hlast := getLast?_ledger h
  rw [Block.attach, Ledger.attach, hlast]
  cases hbucket : b.bucketIsLast with
  | true =>
    obtain ⟨slots, _ | bucket⟩ := b
    · cases hbucket
    · exact ledger_pushItem _ item
  | false =>
    simp only [Bool.false_eq_true, if_false, getLast?_cellsOf]
    cases hslot : b.slots.getLast? with
    | none => exact ledger_pushItem b item
    | some last =>
      obtain ⟨key, node | ⟨slots, bucket⟩⟩ := last
      · exact ledger_pushItem b item
      · have hnested : (Block.pushItem ⟨slots, bucket⟩ item).toSlot.cell =
            .nested (Ledger.append (withBucket (cellsOf slots) bucket) item) :=
          congrArg Cell.nested (ledger_pushItem ⟨slots, bucket⟩ item)
        exact (ledger_insert h key _).trans (congrArg _ hnested)

mutual

lemma finish_cell : (slot : Slot) → slot.cell.finish = slot.finish
  | .value _ => rfl
  | .nested slots (some bucket) => by
    rw [Slot.cell, Cell.finish, items?_withBucket, Slot.finish]
  | .nested slots none => by
    rw [Slot.cell, Cell.finish, withBucket, items?_cellsOf, Slot.finish]
    exact congrArg Node.mapping (finishCells_cellsOf slots)

lemma finishCells_cellsOf : (slots : List (String × Slot)) →
    finishCells (cellsOf slots) = finishSlots slots
  | [] => rfl
  | (key, slot) :: rest => by
    rw [cellsOf, finishCells, finish_cell slot, finishCells_cellsOf rest, finishSlots]

end

lemma finish_ledger (b : Block) : b.ledger.finish = b.finish := finish_cell b.toSlot

mutual

lemma step_ledger {b : Block} (h : b.Placed) : (step : Step) →
    (b.step step).Placed ∧ (b.step step).ledger = b.ledger.step step
  | .value key node => ⟨h.insert key _, ledger_insert h key _⟩
  | .nested key steps => by
    have hnested := (run_ledger .empty steps).2
    refine ⟨h.insert key _, ?_⟩
    rw [Block.step, ledger_insert h, Ledger.step]
    exact congrArg (fun cells => Ledger.put b.ledger (.named key) (.nested cells)) hnested
  | .item node => ⟨h.attach node, ledger_attach h node⟩

lemma run_ledger {b : Block} (h : b.Placed) : (steps : List Step) →
    (b.run steps).Placed ∧ (b.run steps).ledger = b.ledger.run steps
  | [] => ⟨h, rfl⟩
  | step :: rest => by
    obtain ⟨hplaced, hledger⟩ := step_ledger h step
    rw [Block.run, Ledger.run, ← hledger]
    exact run_ledger hplaced rest

end

/-- Whatever happens to a section, it holds at every moment what an ordered map holds in which the
list items have a key of their own, and in the end it is that list if there is one, and the mapping
of its entries if not. -/
theorem run_simulates (steps : List Step) :
    (Block.empty.run steps).ledger = Ledger.run [] steps ∧
      (Block.empty.run steps).finish = (Ledger.run [] steps).finish := by
  have hledger := (run_ledger .empty steps).2
  refine ⟨hledger, ?_⟩
  rw [← finish_ledger, hledger]
  rfl

-- An entry that is written again stays before the list, which remains the last key.
example : (Block.empty.run [.value "a" .null, .item (.int 1), .nested "a" [], .item (.int 2)]).finish =
    .sequence [.int 1, .int 2] := rfl

def stepsOf : List Mark → List Step
  | [] => []
  | (_, none) :: rest => stepsOf rest
  | (_, some (.item node)) :: rest => .item node :: stepsOf rest
  | (_, some (.entry key value)) :: rest => .value key value :: stepsOf rest
  | (indent, some (.header key)) :: rest =>
    .nested key (stepsOf (bodyOf indent rest)) :: stepsOf (afterBody indent rest)
termination_by marks => marks.length
decreasing_by
  all_goals simp only [List.length_cons]
  any_goals omega
  · exact Nat.lt_succ_of_le (List.takeWhile_prefix _).length_le
  · exact Nat.lt_succ_of_le (List.dropWhile_suffix _).length_le

lemma build_eq_run (b : Block) (marks : List Mark) : build b marks = b.run (stepsOf marks) := by
  induction b, marks using build.induct with
  | case1 b => rw [build, stepsOf, Block.run]
  | case2 b indent rest ih => rw [build, stepsOf, ih]
  | case3 b indent node rest ih => rw [build, stepsOf, Block.run, Block.step, ih]
  | case4 b indent key value rest ih => rw [build, stepsOf, Block.run, Block.step, ih]
  | case5 b indent key rest ihBody ihAfter =>
    rw [build, stepsOf, Block.run, Block.step, ← ihBody, ihAfter]

theorem parse?_eq_ledger (source : List Char) :
    parse? source = .ok (Ledger.run [] (stepsOf (marks source))).finish := by
  rw [parse?_eq_ok, parse_eq, build_eq_run, ← finish_ledger, (run_ledger .empty _).2]
  rfl

end LayeredConfig.Outline
