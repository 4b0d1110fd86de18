import LayeredConfig.Node

namespace LayeredConfig.Node

mutual

/-- Null gives way to the other side, sequences are joined, mappings are merged key by key, and
otherwise the upper tree wins. The recursion follows the upper tree. -/
def merge (base : Node) : Node → Node
  | .null => base
  | .sequence more =>
    match base with
    | .sequence items => .sequence (items ++ more)
    | _ => .sequence more
  | .mapping overlay =>
    match base with
    | .mapping fields => .mapping (mergeFields fields overlay)
    | _ => .mapping overlay
  | overlay => overlay

def mergeFields (fields : Mapping) : List (String × Node) → Mapping
  | [] => fields
  | (key, value) :: rest =>
    let merged := match Fields.get? fields key with
      | some current => merge current value
      | none => value
    mergeFields (Fields.insert fields key merged) rest

end

end LayeredConfig.Node
