import LayeredConfig.Formula.Operand
import LayeredConfig.Node.Json
import LayeredConfig.Node.View

/-! Loose comparison: flags and null compare by truth, numbers and numeric texts by value, and all
else by text. -/

namespace LayeredConfig.Formula

open Number

def number? : Node → Option Operand
  | .int n => some (.int n)
  | .float x => some (.float x)
  | .string s => Operand.ofText? s
  | _ => none

def isFlag : Node → Bool
  | .bool _ | .null => true
  | _ => false

def comparedText : Node → String
  | .string s | .expression s => s
  | .int n => toString n.toInt
  | .float x => plainLayout.text x
  | .bool true => "1"
  | .bool false | .null => ""
  | .tag name args => Node.tagText name args
  | .mapping _ => Kind.object.name
  | .sequence _ => Kind.list.name
  | .conditional _ _ => Kind.conditional.name

def Operand.same : Operand → Operand → Bool
  | .int a, .int b => a == b
  | x, y => x.toFloat == y.toFloat

def floatOrder? (x y : Float) : Option Ordering :=
  if x < y then some .lt else if x == y then some .eq else if y < x then some .gt else none

def Operand.order? : Operand → Operand → Option Ordering
  | .int a, .int b => some (compare a.toInt b.toInt)
  | x, y => floatOrder? x.toFloat y.toFloat

def plainEqual (a b : Node) : Bool :=
  match number? a, number? b with
  | some x, some y => x.same y
  | _, _ => comparedText a == comparedText b

def looseEqual (a b : Node) : Bool :=
  if a.isNull && b.isNull then true
  else if isFlag a || isFlag b then a.truthy == b.truthy
  else if a.isContainer || b.isContainer then Node.same a b
  else plainEqual a b

def plainOrder? (a b : Node) : Option Ordering :=
  match number? a, number? b with
  | some x, some y => x.order? y
  | _, _ => some (compare (comparedText a) (comparedText b))

def looseOrder? (a b : Node) : Option Ordering :=
  if a.isContainer || b.isContainer then none
  else if (isFlag a || isFlag b) && !(a.isNull && b.isNull) then
    some (compare a.truthy b.truthy)
  else plainOrder? a b

def orderOf (op : Operator) (a b : Node) : Except Fault Ordering :=
  match looseOrder? a b with
  | some o => .ok o
  | none => .error (.invalidOperand op.text (if a.isContainer then a.kind else b.kind))

end LayeredConfig.Formula
