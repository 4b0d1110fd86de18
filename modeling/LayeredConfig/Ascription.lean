import LayeredConfig.Node
import LayeredConfig.Text.Blank
import LayeredConfig.Text.Pieces

/-! Type annotations on keys, written `name<Type>`, and the paths of annotated values. -/

namespace LayeredConfig

open Text

structure Ascription where
  base : String
  typeName : String
  deriving Repr, DecidableEq

namespace Ascription

def read? (key : String) : Option Ascription := do
  let inner ← dropEnd? ['>'] key.toList
  let (base, _, typeName) ← cutLast (· == '<') inner
  if isName typeName then
    some ⟨if base.isEmpty then key else String.ofList base, String.ofList typeName⟩
  else none

def strip (key : String) : String := ((read? key).map base).getD key

def joinPath (parent key : String) : String := if parent.isEmpty then key else parent ++ "." ++ key

mutual

def collect (path : String) (found : Fields String) : Node → Fields String
  | .mapping fields => collectFields path found fields
  | _ => found

def collectFields (path : String) (found : Fields String) : List (String × Node) → Fields String
  | [] => found
  | (key, value) :: rest =>
    let here := joinPath path (strip key)
    let found := match read? key with
      | some ascription => Fields.insert found here ascription.typeName
      | none => found
    collectFields path (collect here found value) rest

end

def extract (doc : Node) : Fields String := collect "" [] doc

end Ascription

end LayeredConfig
