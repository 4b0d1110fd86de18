import LayeredConfig.Node
import LayeredConfig.Number.Literal
import LayeredConfig.Text.Blank
import LayeredConfig.Text.Pieces

/-! Bare values: the text behind a colon or a list marker, read as a typed node. -/

namespace LayeredConfig.Outline

open Number Text

def numberNode (l : Literal) : Node :=
  if l.fraction.isSome then .float l.toFloat
  else match l.int64? with
    | some n => .int n
    | none =>
      match l.toDouble.integer? with
      | some n => if minInt ≤ n ∧ n ≤ maxInt + 1 then .int (clamp n) else .float l.toFloat
      | none => .float l.toFloat

def tagArgs (s : List Char) : List (List Char) :=
  ((pieces ',' s).map trim).filter (!·.isEmpty)

def readTag (s : List Char) : Option Node := do
  let body ← dropEnd? [')'] (← dropStart? ['!'] s)
  let (name, _, args) ← cut (· == '(') body
  if isName name then
    some (.tag (String.ofList name) ((tagArgs args).map String.ofList))
  else none

def unquote : List Char → Option (List Char)
  | [] => none
  | q :: rest =>
    if (q = '"' ∨ q = '\'') ∧ (q :: rest).getLast? = some q then some rest.dropLast else none

def readText (s : List Char) : Node :=
  match numeral? s with
  | some l => numberNode l
  | none =>
    match readTag s with
    | some tag => tag
    | none => .string (String.ofList ((unquote s).getD s))

def readScalar (raw : List Char) : Node :=
  let s := trim raw
  if s.isEmpty then .null
  else if s = ['t', 'r', 'u', 'e'] then .bool true
  else if s = ['f', 'a', 'l', 's', 'e'] then .bool false
  else readText s

end LayeredConfig.Outline
