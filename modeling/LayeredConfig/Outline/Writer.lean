import LayeredConfig.Node
import LayeredConfig.Number.Layout

namespace LayeredConfig.Outline

open Number

def scalarText : Node → List Char
  | .bool true => ['t', 'r', 'u', 'e']
  | .bool false => ['f', 'a', 'l', 's', 'e']
  | .int n => (toString n.toInt).toList
  | .float x => (diagnosticLayout.text x).toList
  | .string s => '"' :: s.toList ++ ['"']
  | _ => []

def padding (depth : Nat) : List Char := List.replicate (2 * depth) ' '

def itemLine (depth : Nat) (item : Node) : List Char :=
  padding depth ++ '-' :: ' ' :: scalarText item

def headerLine (depth : Nat) (key : String) : List Char := padding depth ++ key.toList ++ [':']

def entryLine (depth : Nat) (key : String) (value : Node) : List Char :=
  padding depth ++ key.toList ++ ':' :: ' ' :: scalarText value

def writeItems (depth : Nat) : List Node → List Char
  | [] => []
  | item :: rest => itemLine depth item ++ '\n' :: writeItems depth rest

mutual

def writeAt (depth : Nat) : Node → List Char
  | .mapping fields => writeFields depth fields
  | .sequence items => writeItems depth items
  | n => scalarText n

def writeFields (depth : Nat) : List (String × Node) → List Char
  | [] => []
  | (key, value) :: rest =>
    (if value.isContainer then headerLine depth key ++ '\n' :: writeAt (depth + 1) value
      else entryLine depth key value ++ ['\n']) ++ writeFields depth rest

end

def write (n : Node) : String := String.ofList (writeAt 0 n)

end LayeredConfig.Outline
