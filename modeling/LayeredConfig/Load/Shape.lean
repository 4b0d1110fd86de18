import LayeredConfig.Load.Pipeline
import LayeredConfig.Node.Json

namespace LayeredConfig.Load

inductive Shape where
  | anything
  | text
  | flag
  | whole (low high : Int)
  | list (element : Shape)
  | table (value : Shape)
  | record (fields : List (String × Shape))

mutual

def data : Node → Node
  | .float x => if x.isFinite then .float x else .null
  | .expression s => .string s
  | .tag name args => .string (Node.tagText name args)
  | .conditional condition value => .mapping [("if", .string condition), ("value", data value)]
  | .mapping fields => .mapping (Fields.sorted (dataFields fields))
  | .sequence items => .sequence (dataItems items)
  | n => n

def dataItems : List Node → List Node
  | [] => []
  | item :: rest => data item :: dataItems rest

def dataFields : List (String × Node) → List (String × Node)
  | [] => []
  | (key, value) :: rest => (key, data value) :: dataFields rest

end

def readAll (read : Node → Option Node) : List Node → Option (List Node)
  | [] => some []
  | item :: rest => return (← read item) :: (← readAll read rest)

def readValues (read : Node → Option Node) : Mapping → Option Mapping
  | [] => some []
  | (key, value) :: rest => return (key, ← read value) :: (← readValues read rest)

mutual

def Shape.read : Shape → Node → Option Node
  | .anything, n => some n
  | .text, .string s => some (.string s)
  | .flag, .bool b => some (.bool b)
  | .whole low high, .int n => if low ≤ n.toInt ∧ n.toInt ≤ high then some (.int n) else none
  | .list element, .sequence items => (readAll (Shape.read element) items).map .sequence
  | .table value, .mapping fields => (readValues (Shape.read value) fields).map .mapping
  | .record fields, .mapping entries => (readRecord fields entries).map .mapping
  | .record fields, .sequence items => (readRow fields items).map .mapping
  | _, _ => none

def readRecord : List (String × Shape) → Mapping → Option Mapping
  | [], _ => some []
  | (name, shape) :: rest, entries => do
    let value ← shape.read (← Fields.get? entries name)
    return (name, value) :: (← readRecord rest entries)

def readRow : List (String × Shape) → List Node → Option Mapping
  | [], [] => some []
  | (name, shape) :: rest, item :: items => do
    let value ← shape.read item
    return (name, value) :: (← readRow rest items)
  | _, _ => none

end

def build (request : Request) (shape : Shape) : Run Node := do
  let loaded ← load request
  match shape.read (data loaded.config) with
  | some n => return n
  | none => throw .shape

end LayeredConfig.Load
