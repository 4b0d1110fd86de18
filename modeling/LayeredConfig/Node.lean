import LayeredConfig.Fields

namespace LayeredConfig

inductive Node where
  | null
  | bool (value : Bool)
  | int (value : Int64)
  | float (value : Float)
  | string (text : String)
  | mapping (fields : List (String × Node))
  | sequence (items : List Node)
  | expression (text : String)
  | tag (name : String) (args : List String)
  | conditional (condition : String) (value : Node)
  deriving Repr, Inhabited

abbrev Mapping := Fields Node

inductive Kind where
  | null | bool | int | float | string | object | list | expression | tag | conditional
  deriving Repr, DecidableEq

def Kind.name : Kind → String
  | .null => "null"
  | .bool => "bool"
  | .int => "int"
  | .float => "float"
  | .string => "string"
  | .object => "object"
  | .list => "list"
  | .expression => "expression"
  | .tag => "tag"
  | .conditional => "conditional"

namespace Node

def kind : Node → Kind
  | .null => .null
  | .bool _ => .bool
  | .int _ => .int
  | .float _ => .float
  | .string _ => .string
  | .mapping _ => .object
  | .sequence _ => .list
  | .expression _ => .expression
  | .tag _ _ => .tag
  | .conditional _ _ => .conditional

def isNull : Node → Bool
  | .null => true
  | _ => false

def isContainer : Node → Bool
  | .mapping _ | .sequence _ => true
  | _ => false

mutual

def isResolved : Node → Bool
  | .expression _ | .tag _ _ | .conditional _ _ => false
  | .mapping fields => fieldsResolved fields
  | .sequence items => itemsResolved items
  | _ => true

def itemsResolved : List Node → Bool
  | [] => true
  | item :: rest => item.isResolved && itemsResolved rest

def fieldsResolved : List (String × Node) → Bool
  | [] => true
  | (_, value) :: rest => value.isResolved && fieldsResolved rest

end

mutual

/-- Equality in which numbers of floating point compare as numbers and the order of fields does
not matter. -/
def same : Node → Node → Bool
  | .null, .null => true
  | .bool a, .bool b => a == b
  | .int a, .int b => a == b
  | .float a, .float b => a == b
  | .string a, .string b => a == b
  | .mapping a, .mapping b => a.length == b.length && fieldsAmong a b
  | .sequence a, .sequence b => itemsSame a b
  | .expression a, .expression b => a == b
  | .tag a as, .tag b bs => a == b && as == bs
  | .conditional c a, .conditional d b => c == d && same a b
  | _, _ => false

def itemsSame : List Node → List Node → Bool
  | [], [] => true
  | a :: as, b :: bs => same a b && itemsSame as bs
  | _, _ => false

def fieldsAmong : List (String × Node) → Mapping → Bool
  | [], _ => true
  | (key, a) :: rest, others =>
    (match Fields.get? others key with
      | some b => same a b
      | none => false) && fieldsAmong rest others

end

end Node

end LayeredConfig
