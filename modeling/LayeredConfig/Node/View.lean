import LayeredConfig.Node
import LayeredConfig.Number.Double
import LayeredConfig.Text.Pieces

namespace LayeredConfig.Node

def string? : Node → Option String
  | .string s => some s
  | _ => none

def int? : Node → Option Int64
  | .int n => some n
  | _ => none

def float? : Node → Option Float
  | .int n => some (Number.ofInt64 n)
  | .float x => some x
  | _ => none

def bool? : Node → Option Bool
  | .bool b => some b
  | _ => none

def mapping? : Node → Option Mapping
  | .mapping fields => some fields
  | _ => none

def sequence? : Node → Option (List Node)
  | .sequence items => some items
  | _ => none

def get? : Node → String → Option Node
  | .mapping fields, key => Fields.get? fields key
  | _, _ => none

def descend : Node → List String → Option Node
  | n, [] => some n
  | n, key :: rest => (n.get? key).bind (descend · rest)

def pathKeys (path : String) : List String := (Text.pieces '.' path.toList).map String.ofList

def getPath? (n : Node) (path : String) : Option Node := n.descend (pathKeys path)

def truthy : Node → Bool
  | .null => false
  | .bool b => b
  | .int n => n != 0
  | .float x => x != 0
  | .string s => !(s == "" || s == "0")
  | .mapping fields => !fields.isEmpty
  | .sequence items => !items.isEmpty
  | .expression _ | .tag _ _ | .conditional _ _ => true

end LayeredConfig.Node
