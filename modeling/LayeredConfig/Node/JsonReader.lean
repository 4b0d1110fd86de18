import LayeredConfig.Node
import LayeredConfig.Number.Literal
import LayeredConfig.Text.Pieces

namespace LayeredConfig.Node

open Number Text

def hexValue? (c : Char) : Option Nat :=
  if c.isDigit then some (c.toNat - '0'.toNat)
  else if 'a' ≤ c ∧ c ≤ 'f' then some (c.toNat - 'a'.toNat + 10)
  else none

def hexChar? (digits : List Char) : Option Char := do
  let n ← digits.foldlM (fun n c => (hexValue? c).map (16 * n + ·)) 0
  if n.isValidChar then some (Char.ofNat n) else none

def unescape? : Char → Option Char
  | '"' => some '"'
  | '\\' => some '\\'
  | 'n' => some '\n'
  | 'r' => some '\r'
  | 't' => some '\t'
  | 'b' => some '\x08'
  | 'f' => some '\x0c'
  | _ => none

def readChars : List Char → Option (List Char × List Char)
  | [] => none
  | c :: rest =>
    if c = '"' then some ([], rest)
    else if c = '\\' then
      match rest with
      | [] => none
      | mark :: rest =>
        if mark = 'u' then
          match rest with
          | d₁ :: d₂ :: d₃ :: d₄ :: rest => do
            let c ← hexChar? [d₁, d₂, d₃, d₄]
            (readChars rest).map fun (s, rest) => (c :: s, rest)
          | _ => none
        else do
          let c ← unescape? mark
          (readChars rest).map fun (s, rest) => (c :: s, rest)
    else (readChars rest).map fun (s, rest) => (c :: s, rest)

def readWord (word : List Char) (n : Node) (s : List Char) : Option (Node × List Char) :=
  (dropStart? word s).map (n, ·)

def readWhole (negative : Bool) (s : List Char) : Option (Node × List Char) :=
  let (digits, rest) := scanDigits s
  if digits.isEmpty then none
  else (int64? (signed negative (digitsValue digits))).map (.int ·, rest)

def readField (readValue : List Char → Option (Node × List Char)) :
    List Char → Option ((String × Node) × List Char)
  | '"' :: rest => do
    let (key, rest) ← readChars rest
    let (value, rest) ← readValue (← dropStart? [':'] rest)
    return ((String.ofList key, value), rest)
  | _ => none

mutual

/-- The value at the start of a text, and what follows it. A bound on the length of the text comes
first, here and in the following readers. -/
def readValue : Nat → List Char → Option (Node × List Char)
  | 0, _ | _, [] => none
  | bound + 1, c :: rest =>
    match c with
    | '"' => (readChars rest).map fun (s, rest) => (.string (String.ofList s), rest)
    | '[' =>
      match dropStart? [']'] rest with
      | some rest => some (.sequence [], rest)
      | none => do
        let (item, rest) ← readValue bound rest
        let (items, rest) ← readItems bound rest
        return (.sequence (item :: items), rest)
    | '{' =>
      match dropStart? ['}'] rest with
      | some rest => some (.mapping [], rest)
      | none => do
        let (field, rest) ← readField (readValue bound) rest
        let (fields, rest) ← readFields bound rest
        return (.mapping (field :: fields), rest)
    | 'n' => readWord ['u', 'l', 'l'] .null rest
    | 't' => readWord ['r', 'u', 'e'] (.bool true) rest
    | 'f' => readWord ['a', 'l', 's', 'e'] (.bool false) rest
    | '-' => readWhole true rest
    | _ => readWhole false (c :: rest)

def readItems : Nat → List Char → Option (List Node × List Char)
  | _ + 1, ']' :: rest => some ([], rest)
  | bound + 1, ',' :: rest => do
    let (item, rest) ← readValue bound rest
    let (items, rest) ← readItems bound rest
    return (item :: items, rest)
  | _, _ => none

def readFields : Nat → List Char → Option (List (String × Node) × List Char)
  | _ + 1, '}' :: rest => some ([], rest)
  | bound + 1, ',' :: rest => do
    let (field, rest) ← readField (readValue bound) rest
    let (fields, rest) ← readFields bound rest
    return (field :: fields, rest)
  | _, _ => none

end

def ofJson? (text : String) : Option Node :=
  match readValue text.toList.length text.toList with
  | some (n, []) => some n
  | _ => none

end LayeredConfig.Node
