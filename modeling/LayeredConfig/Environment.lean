import LayeredConfig.Node

namespace LayeredConfig

structure Environment where
  vars : Mapping
  deriving Repr

namespace Environment

def empty : Environment := ⟨[]⟩

def get? (e : Environment) (name : String) : Option Node := Fields.get? e.vars name

def set (e : Environment) (name : String) (value : Node) : Environment :=
  ⟨Fields.insert e.vars name value⟩

def ofPairs (pairs : List (String × Node)) : Environment := ⟨Fields.ofPairs pairs⟩

def size (e : Environment) : Nat := e.vars.length

def isEmpty (e : Environment) : Bool := e.vars.isEmpty

def sameLetters (a b : String) : Bool := a.toList.map Char.toLower == b.toList.map Char.toLower

def coerce (text : String) : Node :=
  if sameLetters text "true" then .bool true
  else if sameLetters text "false" then .bool false
  else .string text

def ofTexts (vars : List (String × String)) : Environment :=
  ofPairs (vars.map fun (name, text) => (name, coerce text))

end Environment

end LayeredConfig
