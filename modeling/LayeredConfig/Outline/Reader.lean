import LayeredConfig.Outline.Block
import LayeredConfig.Outline.Row

/-! Reading a document by its indentation. -/

namespace LayeredConfig.Outline

open Text

structure Frame where
  level : Int
  key : String
  block : Block
  deriving Repr

structure Underflow where
  line : Nat
  deriving Repr, DecidableEq

def Underflow.message (u : Underflow) : String :=
  "invalid indentation at line " ++ toString u.line ++ ": no enclosing section"

namespace Frame

def root : Frame := ⟨-1, "", .empty⟩

def insert (f : Frame) (key : String) (slot : Slot) : Frame :=
  { f with block := f.block.insert key slot }

def enter (outer inner : Frame) : Frame := outer.insert inner.key inner.block.toSlot

end Frame

def closeFrame (indent : Int) (line : Nat) (frame : Frame) :
    List Frame → Except Underflow (List Frame)
  | [] => if indent < frame.level then throw ⟨line⟩ else return [frame]
  | outer :: rest =>
    if indent < frame.level then closeFrame indent line (outer.enter frame) rest
    else return frame :: outer :: rest

def close (indent : Int) (line : Nat) : List Frame → Except Underflow (List Frame)
  | [] => return []
  | frame :: rest => closeFrame indent line frame rest

def place (indent : Int) (line : Nat) (row : Row) : List Frame → Except Underflow (List Frame)
  | [] => throw ⟨line⟩
  | frame :: rest =>
    match row with
    | .header key =>
      return ⟨indent + 1, key, .empty⟩ :: frame.insert key Block.empty.toSlot :: rest
    | .item node => return { frame with block := frame.block.attach node } :: rest
    | .entry key value => return frame.insert key (.value value) :: rest

def isSkipped (line : List Char) : Bool :=
  match line with
  | [] => true
  | '#' :: _ => true
  | '%' :: _ => true
  | '-' :: '-' :: '-' :: _ => true
  | _ => false

def indentOf (raw : List Char) : Nat := (raw.takeWhile fun c => c == ' ' || c == '\t').length

def readLine (line : Nat) (frames : List Frame) (raw : List Char) :
    Except Underflow (List Frame) := do
  let text := trim raw
  if isSkipped text then return frames
  else
    let frames ← close (indentOf raw) line frames
    match Row.read? text with
    | some row => place (indentOf raw) line row frames
    | none => return frames

def readLines (line : Nat) (frames : List Frame) :
    List (List Char) → Except Underflow (List Frame)
  | [] => return frames
  | raw :: rest => do readLines (line + 1) (← readLine line frames raw) rest

def parse? (source : List Char) : Except Underflow Node := do
  let frames ← readLines 1 [.root] (lines source)
  match ← close 0 0 frames with
  | [] => throw ⟨0⟩
  | frame :: _ => return frame.block.finish

/-- The tree of a document: a sequence if list items stand at the root itself, else a mapping. No
document underflows. -/
def parse (source : List Char) : Node := (parse? source).toOption.getD .null

end LayeredConfig.Outline
