import LayeredConfig.Node

/-! Sections under construction. -/

namespace LayeredConfig.Outline

/-- Pending list items, and how many entries there were when the first of them came. -/
structure Bucket where
  items : List Node
  position : Nat
  deriving Repr

inductive Slot where
  | value (node : Node)
  | nested (slots : List (String × Slot)) (bucket : Option Bucket)
  deriving Repr

structure Block where
  slots : Fields Slot
  bucket : Option Bucket
  deriving Repr

namespace Block

def empty : Block := ⟨[], none⟩

def toSlot (b : Block) : Slot := .nested b.slots b.bucket

def insert (b : Block) (key : String) (slot : Slot) : Block :=
  { b with slots := Fields.insert b.slots key slot }

def pushItem (b : Block) (item : Node) : Block :=
  { b with bucket := match b.bucket with
    | some bucket => some { bucket with items := bucket.items ++ [item] }
    | none => some ⟨[item], b.slots.length⟩ }

def bucketIsLast (b : Block) : Bool :=
  match b.bucket with
  | some bucket => bucket.position == b.slots.length
  | none => false

/-- An item goes to the section of the most recent entry, unless the bucket is more recent or that
entry is a value. -/
def attach (b : Block) (item : Node) : Block :=
  if b.bucketIsLast then b.pushItem item
  else match b.slots.getLast? with
    | some (key, .nested slots bucket) => b.insert key (Block.mk slots bucket |>.pushItem item).toSlot
    | _ => b.pushItem item

end Block

mutual

def Slot.finish : Slot → Node
  | .value node => node
  | .nested _ (some bucket) => .sequence bucket.items
  | .nested slots none => .mapping (finishSlots slots)

def finishSlots : List (String × Slot) → List (String × Node)
  | [] => []
  | (key, slot) :: rest => (key, slot.finish) :: finishSlots rest

end

def Block.finish (b : Block) : Node := b.toSlot.finish

end LayeredConfig.Outline
