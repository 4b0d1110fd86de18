import LayeredConfig.Text.Blank
import LayeredConfig.Text.Pieces

namespace LayeredConfig.Import

open Text

def isNumeral (s : List Char) : Bool := !s.isEmpty && s.all Char.isDigit

def isVersion (s : List Char) : Bool :=
  match cut (· == '.') s with
  | some (major, _, minor) => isNumeral major && isNumeral minor
  | none => false

def isHeader (line : List Char) : Bool :=
  match dropStart? "%WAFL".toList line with
  | some rest => startsBlank rest && isVersion (trim rest)
  | none => false

def wrongHeader? (source : List Char) : Option (List Char) :=
  match lines source with
  | [] => none
  | raw :: _ =>
    let first := trim raw
    if first.head? = some '%' ∧ !isHeader first then some first else none

end LayeredConfig.Import
