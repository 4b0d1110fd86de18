import LayeredConfig.Ascription
import LayeredConfig.Number.Literal
import LayeredConfig.Schema.Spec

namespace LayeredConfig.Schema

open Number Text

inductive Mismatch where
  | type (path : String) (expected : String) (actual : Kind)
  | missing (field : String) (path : String)
  deriving Repr, DecidableEq

def Mismatch.message : Mismatch → String
  | .type path expected actual => "expected " ++ expected ++ " at " ++ path ++ ", got " ++ actual.name
  | .missing field path => "required field \"" ++ field ++ "\" missing at " ++ path

def isNumber : Node → Bool
  | .int _ | .float _ => true
  | .string s => isNumeric (trim s.toList)
  | _ => false

def expect (holds : Bool) (path expected : String) (value : Node) : Except Mismatch Unit :=
  if holds then .ok () else .error (.type path expected value.kind)

def itemPath (path : String) (index : Nat) : String := path ++ "[" ++ toString index ++ "]"

def checkItems (check : String → Node → Except Mismatch Unit) (path : String) :
    Nat → List Node → Except Mismatch Unit
  | _, [] => .ok ()
  | index, item :: rest => do
    check (itemPath path index) item
    checkItems check path (index + 1) rest

mutual

def check : Spec → String → Node → Except Mismatch Unit
  | .string, path, value => expect (value.kind == .string) path "string" value
  | .number name, path, value => expect (isNumber value) path name.text value
  | .bool, path, value => expect (value.kind == .bool) path "boolean" value
  | .list element, path, value =>
    match value with
    | .sequence items => checkItems (check element) path 0 items
    | other => .error (.type path "list" other.kind)
  | .object fields, path, value =>
    match value with
    | .mapping entries => checkFields fields path entries
    | other => .error (.type path "object" other.kind)
  | .unchecked _, _, _ => .ok ()

def checkFields : List (String × Bool × Spec) → String → Mapping → Except Mismatch Unit
  | [], _, _ => .ok ()
  | (name, isOptional, spec) :: rest, path, entries => do
    match Fields.get? entries name with
    | some value => check spec (Ascription.joinPath path name) value
    | none => if isOptional then .ok () else .error (.missing name path)
    checkFields rest path entries

end

end LayeredConfig.Schema
