import LayeredConfig.Node
import LayeredConfig.Number.Layout

namespace LayeredConfig.Import

def importKey : String := "@import"

def schemaKey : String := "@schema"

def evalKey : String := "@eval"

def pathText? : Node → Option String
  | .string s => some s
  | .int n => some (toString n.toInt)
  | .float x => some (Number.plainLayout.text x)
  | _ => none

def importPaths : Node → List String
  | .sequence items => items.filterMap pathText?
  | .mapping fields => (Fields.values fields).filterMap pathText?
  | n => (pathText? n).toList

structure Directives where
  imports : List String
  schema : Option Node
  eval : Option Node
  content : Node

def Directives.schemaMapping (d : Directives) : Option Mapping :=
  match d.schema with
  | some (.mapping fields) => some fields
  | _ => none

def Directives.split : Node → Directives
  | .mapping fields => {
      imports := ((Fields.get? fields importKey).map importPaths).getD []
      schema := Fields.get? fields schemaKey
      eval := Fields.get? fields evalKey
      content := .mapping (Fields.erase (Fields.erase (Fields.erase fields importKey) schemaKey)
        evalKey) }
  | n => ⟨[], none, none, n⟩

end LayeredConfig.Import
