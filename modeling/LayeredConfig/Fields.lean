namespace LayeredConfig

abbrev Fields (α : Type) := List (String × α)

namespace Fields

variable {α : Type}

def get? (fields : Fields α) (key : String) : Option α := fields.lookup key

def has (fields : Fields α) (key : String) : Bool := (get? fields key).isSome

def insert (fields : Fields α) (key : String) (value : α) : Fields α :=
  match fields with
  | [] => [(key, value)]
  | (k, v) :: rest => if k = key then (key, value) :: rest else (k, v) :: insert rest key value

def insertAll (fields more : Fields α) : Fields α :=
  more.foldl (fun acc (key, value) => insert acc key value) fields

def ofPairs (pairs : List (String × α)) : Fields α := insertAll [] pairs

def erase (fields : Fields α) (key : String) : Fields α := fields.filter (·.1 != key)

def keys (fields : Fields α) : List String := fields.map (·.1)

def values (fields : Fields α) : List α := fields.map (·.2)

def sorted (fields : Fields α) : Fields α :=
  fields.mergeSort fun a b => !(decide (b.1 < a.1))

end Fields

end LayeredConfig
