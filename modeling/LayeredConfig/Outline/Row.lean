import LayeredConfig.Outline.Scalar

namespace LayeredConfig.Outline

open Text

inductive Row where
  | header (key : String)
  | item (node : Node)
  | entry (key : String) (value : Node)
  deriving Repr

def listContent? : List Char → Option (List Char)
  | '-' :: rest => if startsBlank rest then some (trim rest) else none
  | _ => none

/-- The condition and the value of `if condition: value`. The condition ends at the first colon
behind its first character, which has to be a character of one byte. -/
def splitConditional (content : List Char) : Option (List Char × List Char) := do
  let rest ← dropStart? ['i', 'f'] content
  if startsBlank rest then
    match trimStart rest with
    | [] => none
    | c :: more =>
      if c.utf8Size = 1 then
        let (before, _, value) ← cut (· == ':') more
        some (trim (c :: before), trim value)
      else none
  else none

def itemNode (content : List Char) : Node :=
  match splitConditional content with
  | some (condition, value) => .conditional (String.ofList condition) (readScalar value)
  | none => readScalar content

def headerKey? (line : List Char) : Option (List Char) :=
  if line.contains '=' then none else (dropEnd? [':'] line).map trim

def readEntry (line : List Char) : Option Row :=
  match cut (fun c => c == ':' || c == '=') line with
  | none => none
  | some ([], _, _) => none
  | some (key, mark, rest) =>
    let value :=
      if mark = '=' then Node.expression (String.ofList (trim rest)) else readScalar (trim rest)
    some (.entry (String.ofList (trim key)) value)

def Row.read? (line : List Char) : Option Row :=
  match headerKey? line with
  | some key => some (.header (String.ofList key))
  | none =>
    match listContent? line with
    | some content => some (.item (itemNode content))
    | none => readEntry line

end LayeredConfig.Outline
