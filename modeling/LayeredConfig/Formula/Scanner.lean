import LayeredConfig.Formula.Lexeme
import LayeredConfig.Number.Literal
import LayeredConfig.Text.Blank
import LayeredConfig.Text.Pieces

namespace LayeredConfig.Formula

open Number Text

def exponentTail (s : List Char) : List Char :=
  let (sign, rest) := match s with
    | '+' :: rest => (['+'], rest)
    | '-' :: rest => (['-'], rest)
    | rest => ([], rest)
  sign ++ rest.takeWhile Char.isDigit

def fractionText : List Char → List Char × List Char
  | '.' :: more => ('.' :: more.takeWhile Char.isDigit, more.dropWhile Char.isDigit)
  | rest => ([], rest)

def exponentText : List Char → List Char
  | c :: more => if c = 'e' ∨ c = 'E' then c :: exponentTail more else []
  | [] => []

def numberText (s : List Char) : List Char :=
  let (fraction, rest) := fractionText (s.dropWhile Char.isDigit)
  s.takeWhile Char.isDigit ++ fraction ++ exponentText rest

def readNumber (c : Char) (rest : List Char) : Except Fault (Lexeme × Nat) :=
  let text := numberText (c :: rest)
  match Literal.read text with
  | none => .error (.invalidNumber (String.ofList text))
  | some l =>
    let lexeme := match l.int64? with
      | some n => Lexeme.int n
      | none => .float l.toFloat
    .ok (lexeme, text.length - 1)

def unescape (c : Char) : Char := if c = 'n' then '\n' else if c = 't' then '\t' else c

def readQuoted (quote : Char) : List Char → Option (List Char × Nat)
  | [] => none
  | c :: rest =>
    if c = quote then some ([], 1)
    else if c = '\\' then
      match rest with
      | [] => none
      | escaped :: rest => (readQuoted quote rest).map fun (s, n) => (unescape escaped :: s, n + 2)
    else (readQuoted quote rest).map fun (s, n) => (c :: s, n + 1)

def readString (quote : Char) (rest : List Char) : Except Fault (Lexeme × Nat) :=
  match readQuoted quote rest with
  | some (s, n) => .ok (.text (String.ofList s), n)
  | none => .error .unterminatedString

def readVariable (rest : List Char) : Except Fault (Lexeme × Nat) :=
  let name := rest.takeWhile isNameChar
  if name.isEmpty then .error .emptyReference
  else .ok (.variable (String.ofList name), name.length + 4)

def readSymbol (rest : List Char) : Except Fault (Lexeme × Nat) :=
  let name := rest.takeWhile isNameChar
  if name.isEmpty then .error .emptyReference
  else .ok (.symbol (String.ofList name), name.length)

def readReference (rest : List Char) : Except Fault (Lexeme × Nat) :=
  match dropStart? ['E', 'N', 'V', '.'] rest with
  | some name => readVariable name
  | none => readSymbol rest

def readWord (c : Char) (rest : List Char) : Except Fault (Lexeme × Nat) :=
  let tail := rest.takeWhile isNameChar
  let word := c :: tail
  let small := word.map Char.toLower
  if small = ['t', 'r', 'u', 'e'] then .ok (.bool true, tail.length)
  else if small = ['f', 'a', 'l', 's', 'e'] then .ok (.bool false, tail.length)
  else if small = ['n', 'u', 'l', 'l'] then .ok (.null, tail.length)
  else .error (.unknownIdentifier (String.ofList word))

def operator? : Char → List Char → Option (Lexeme × Nat)
  | '(', _ => some (.opening, 0)
  | ')', _ => some (.closing, 0)
  | '+', _ => some (.plus, 0)
  | '-', _ => some (.minus, 0)
  | '*', _ => some (.star, 0)
  | '/', _ => some (.slash, 0)
  | '%', _ => some (.percent, 0)
  | '=', '=' :: '=' :: _ => some (.equal, 2)
  | '=', '=' :: _ => some (.equal, 1)
  | '!', '=' :: '=' :: _ => some (.unequal, 2)
  | '!', '=' :: _ => some (.unequal, 1)
  | '!', _ => some (.not, 0)
  | '<', '=' :: _ => some (.atMost, 1)
  | '<', '>' :: _ => some (.unequal, 1)
  | '<', _ => some (.less, 0)
  | '>', '=' :: _ => some (.atLeast, 1)
  | '>', _ => some (.greater, 0)
  | '&', '&' :: _ => some (.and, 1)
  | '|', '|' :: _ => some (.or, 1)
  | _, _ => none

def readOperator (offset : Nat) (c : Char) (rest : List Char) : Except Fault (Lexeme × Nat) :=
  match operator? c rest with
  | some found => .ok found
  | none => .error (.unexpectedChar c offset)

def readLexeme (offset : Nat) (c : Char) (rest : List Char) : Except Fault (Lexeme × Nat) :=
  if c.isDigit || c == '.' then readNumber c rest
  else if c == '"' || c == '\'' then readString c rest
  else if c == '$' then readReference rest
  else if c.isAlpha || c == '_' then readWord c rest
  else readOperator offset c rest

def scanFrom (total : Nat) : List Char → Except Fault (List Lexeme)
  | [] => .ok []
  | c :: rest =>
    if isBlank c then scanFrom total rest
    else
      match readLexeme (total - byteSize (c :: rest)) c rest with
      | .error fault => .error fault
      | .ok (lexeme, n) => (scanFrom total (rest.drop n)).map (lexeme :: ·)
termination_by s => s.length
decreasing_by all_goals simp only [List.length_cons, List.length_drop]; omega

def scan (s : List Char) : Except Fault (List Lexeme) := scanFrom (byteSize s) s

def Lexeme.isSymbol : Lexeme → Bool
  | .symbol _ => true
  | _ => false

def referencesSymbols (s : List Char) : Bool :=
  match scan s with
  | .ok lexemes => lexemes.any Lexeme.isSymbol
  | .error _ => false

end LayeredConfig.Formula
