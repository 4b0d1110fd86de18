import LayeredConfig.Formula.Syntax
import LayeredConfig.Number.Checked
import LayeredConfig.Number.Literal
import LayeredConfig.Text.Blank

namespace LayeredConfig.Formula

open Number Text

inductive Operand where
  | int (value : Int64)
  | float (value : Float)
  deriving Repr

namespace Operand

def toFloat : Operand → Float
  | .int n => ofInt64 n
  | .float x => x

def toNode : Operand → Node
  | .int n => .int n
  | .float x => .float x

def ofLiteral (l : Literal) : Operand :=
  match l.int64? with
  | some n => .int n
  | none => .float l.toFloat

def ofText? (s : String) : Option Operand := (numeral? (trim s.toList)).map ofLiteral

def ofNode? : Node → Option Operand
  | .int n => some (.int n)
  | .float x => some (.float x)
  | .bool b => some (.int (if b then 1 else 0))
  | .null => some (.int 0)
  | .string s => ofText? s
  | _ => none

end Operand

def operandOf (operator : String) (n : Node) : Except Fault Operand :=
  match Operand.ofNode? n with
  | some x => .ok x
  | none => .error (.invalidOperand operator n.kind)

def wholeArithmetic (op : Operator) (a b : Int64) : Except Fault (Option Int64) :=
  match op with
  | .add => .ok (checkedAdd a b)
  | .sub => .ok (checkedSub a b)
  | .mul => .ok (checkedMul a b)
  | .div =>
    if b = 0 then .error .divisionByZero
    else .ok (if checkedRem a b = some 0 then checkedDiv a b else none)
  | .rem => if b = 0 then .error .divisionByZero else .ok (some ((checkedRem a b).getD 0))
  | _ => .ok none

def doubleArithmetic (op : Operator) (x y : Float) : Except Fault Node :=
  match op with
  | .add => .ok (.float (x + y))
  | .sub => .ok (.float (x - y))
  | .mul => .ok (.float (x * y))
  | .div => if y == 0 then .error .divisionByZero else .ok (.float (x / y))
  | .rem =>
    let a := (Double.ofFloat x).toInt64
    let b := (Double.ofFloat y).toInt64
    if b = 0 then .error .divisionByZero else .ok (.int ((checkedRem a b).getD 0))
  | _ => .error (.unexpectedToken op.text)

def arithmetic (op : Operator) : Operand → Operand → Except Fault Node
  | .int a, .int b => do
    match ← wholeArithmetic op a b with
    | some n => return .int n
    | none => doubleArithmetic op (ofInt64 a) (ofInt64 b)
  | x, y => doubleArithmetic op x.toFloat y.toFloat

def Operand.negate : Operand → Node
  | .int n =>
    match checkedNeg n with
    | some m => .int m
    | none => .float (-ofInt64 n)
  | .float x => .float (-x)

end LayeredConfig.Formula
