import LayeredConfig.Node
import LayeredConfig.Number.Layout
import LayeredConfig.Text.Escape

namespace LayeredConfig.Node

open Number Text

def tagText (name : String) (args : List String) : String :=
  "!" ++ name ++ "(" ++ ", ".intercalate args ++ ")"

def floatJson (x : Float) : List Char :=
  if x.isFinite then (jsonLayout.text x).toList else ['n', 'u', 'l', 'l']

def keyJson (key : String) : List Char := jsonString key.toList ++ [':']

mutual

def jsonChars : Node → List Char
  | .null => ['n', 'u', 'l', 'l']
  | .bool true => ['t', 'r', 'u', 'e']
  | .bool false => ['f', 'a', 'l', 's', 'e']
  | .int n => (toString n.toInt).toList
  | .float x => floatJson x
  | .string s => jsonString s.toList
  | .expression s => jsonString s.toList
  | .tag name args => jsonString (tagText name args).toList
  | .mapping [] => ['{', '}']
  | .mapping ((key, value) :: rest) =>
    '{' :: keyJson key ++ jsonChars value ++ fieldsJson rest ++ ['}']
  | .sequence [] => ['[', ']']
  | .sequence (item :: rest) => '[' :: jsonChars item ++ itemsJson rest ++ [']']
  | .conditional condition value =>
    '{' :: keyJson "if" ++ jsonString condition.toList ++ ',' :: keyJson "value" ++
      jsonChars value ++ ['}']

def fieldsJson : List (String × Node) → List Char
  | [] => []
  | (key, value) :: rest => ',' :: keyJson key ++ jsonChars value ++ fieldsJson rest

def itemsJson : List Node → List Char
  | [] => []
  | item :: rest => ',' :: jsonChars item ++ itemsJson rest

end

def json (n : Node) : String := String.ofList n.jsonChars

end LayeredConfig.Node
