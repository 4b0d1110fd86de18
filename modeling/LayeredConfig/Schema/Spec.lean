import LayeredConfig.Node
import LayeredConfig.Text.Pieces

namespace LayeredConfig.Schema

open Text

inductive NumberName where
  | int | number
  deriving Repr, DecidableEq

def NumberName.text : NumberName → String
  | .int => "int"
  | .number => "number"

inductive Spec where
  | string
  | number (name : NumberName)
  | bool
  | list (element : Spec)
  | object (fields : List (String × Bool × Spec))
  | unchecked (name : String)
  deriving Repr

namespace Spec

def ofPlainName (name : List Char) : Spec :=
  match String.ofList name with
  | "string" => .string
  | "int" => .number .int
  | "number" => .number .number
  | "bool" | "boolean" => .bool
  | other => .unchecked other

def elementName? (name : List Char) : Option (List Char) :=
  (dropStart? ['l', 'i', 's', 't', '<'] name).bind (dropEnd? ['>'])

theorem length_dropStart {start s rest : List Char} (h : dropStart? start s = some rest) :
    s.length = start.length + rest.length := by
  fun_induction dropStart? start s <;> simp_all; omega

theorem length_elementName {name element : List Char} (h : elementName? name = some element) :
    element.length < name.length := by
  obtain ⟨body, hb, he⟩ := Option.bind_eq_some_iff.1 h
  obtain ⟨r, hr, rfl⟩ := Option.map_eq_some_iff.1 he
  have := length_dropStart hb
  have := length_dropStart hr
  simp at *
  omega

def ofName (name : List Char) : Spec :=
  match _h : elementName? name with
  | some element => .list (ofName element)
  | none => ofPlainName name
termination_by name.length
decreasing_by exact length_elementName _h

def fieldName (name : String) : String × Bool :=
  match dropEnd? ['?'] name.toList with
  | some stripped => (String.ofList stripped, true)
  | none => (name, false)

mutual

def ofNode : Node → Spec
  | .string name => ofName name.toList
  | .mapping fields => .object (ofFields fields)
  | n => .unchecked n.kind.name

def ofFields : List (String × Node) → List (String × Bool × Spec)
  | [] => []
  | (key, value) :: rest =>
    let (name, isOptional) := fieldName key
    (name, isOptional, ofNode value) :: ofFields rest

end

end Spec

end LayeredConfig.Schema
