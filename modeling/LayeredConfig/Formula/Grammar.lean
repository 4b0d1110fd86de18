import LayeredConfig.Formula.Syntax

/-! Reading a formula from its lexemes. -/

namespace LayeredConfig.Formula

abbrev Level := Lexeme → Option Operator

def disjunction : Level
  | .or => some .or
  | _ => none

def conjunction : Level
  | .and => some .and
  | _ => none

def equality : Level
  | .equal => some .equal
  | .unequal => some .unequal
  | _ => none

def order : Level
  | .less => some .less
  | .atMost => some .atMost
  | .greater => some .greater
  | .atLeast => some .atLeast
  | _ => none

def sum : Level
  | .plus => some .add
  | .minus => some .sub
  | _ => none

def product : Level
  | .star => some .mul
  | .slash => some .div
  | .percent => some .rem
  | _ => none

def levels : List Level := [disjunction, conjunction, equality, order, sum, product]

def sign? : Lexeme → Option Sign
  | .minus => some .minus
  | .plus => some .plus
  | .not => some .not
  | _ => none

def atom? : Lexeme → Option Term
  | .int n => some (.literal (.int n))
  | .float x => some (.literal (.float x))
  | .text s => some (.literal (.string s))
  | .bool b => some (.literal (.bool b))
  | .null => some (.literal .null)
  | .variable name => some (.variable name)
  | .symbol name => some (.symbol name)
  | _ => none

abbrev Reading (ts : List Lexeme) := Term × { rest : List Lexeme // rest.length < ts.length }

mutual

def readLevel : (tighter : List Level) → (ts : List Lexeme) → Except Fault (Reading ts)
  | [], ts => readSigned ts
  | level :: tighter, ts => do
    let (left, ⟨rest, h⟩) ← readLevel tighter ts
    let (term, ⟨rest, h'⟩) ← readChain level tighter left rest
    return (term, ⟨rest, by omega⟩)
termination_by tighter ts => (ts.length, tighter.length + 2)

def readChain (level : Level) (tighter : List Level) (left : Term) :
    (ts : List Lexeme) → Except Fault (Term × { rest : List Lexeme // rest.length ≤ ts.length })
  | [] => return (left, ⟨[], by simp⟩)
  | t :: ts =>
    match level t with
    | none => return (left, ⟨t :: ts, Nat.le_refl _⟩)
    | some operator => do
      let (right, ⟨rest, h⟩) ← readLevel tighter ts
      let (term, ⟨rest, h'⟩) ← readChain level tighter (.binary operator left right) rest
      return (term, ⟨rest, by simp only [List.length_cons]; omega⟩)
termination_by ts => (ts.length, 0)

def readSigned : (ts : List Lexeme) → Except Fault (Reading ts)
  | [] => .error .unexpectedEnd
  | t :: ts =>
    match sign? t with
    | some sign => do
      let (operand, ⟨rest, h⟩) ← readSigned ts
      return (.signed sign operand, ⟨rest, by simp only [List.length_cons]; omega⟩)
    | none =>
      match atom? t with
      | some term => return (term, ⟨ts, by simp⟩)
      | none => readEnclosed t ts
termination_by ts => (ts.length, 1)

def readEnclosed : (t : Lexeme) → (ts : List Lexeme) → Except Fault (Reading (t :: ts))
  | .opening, ts => do
    let (term, ⟨rest, h⟩) ← readLevel levels ts
    match rest, h with
    | .closing :: rest, h =>
      return (term, ⟨rest, by simp only [List.length_cons] at *; omega⟩)
    | t :: _, _ => .error (.unexpectedToken t.describe)
    | [], _ => .error .unexpectedEnd
  | t, _ => .error (.unexpectedToken t.describe)
termination_by _ ts => (ts.length + 1, 0)

end

def readTerm (ts : List Lexeme) : Except Fault Term := do
  let (term, ⟨rest, _⟩) ← readLevel levels ts
  match rest with
  | [] => return term
  | t :: _ => .error (.unexpectedToken t.describe)

end LayeredConfig.Formula
