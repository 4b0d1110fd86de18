import LayeredConfig.Environment
import LayeredConfig.Formula.Comparison
import LayeredConfig.Formula.Grammar
import LayeredConfig.Formula.Scanner

namespace LayeredConfig.Formula

structure Scope where
  environment : Environment
  symbols : Mapping

def Sign.apply (sign : Sign) (n : Node) : Except Fault Node :=
  match sign with
  | .not => .ok (.bool !n.truthy)
  | .plus => (operandOf sign.text n).map Operand.toNode
  | .minus => (operandOf sign.text n).map Operand.negate

def Operator.apply (op : Operator) (a b : Node) : Except Fault Node :=
  match op with
  | .equal => .ok (.bool (looseEqual a b))
  | .unequal => .ok (.bool !looseEqual a b)
  | .less => (orderOf op a b).map fun o => .bool (o == .lt)
  | .atMost => (orderOf op a b).map fun o => .bool (o != .gt)
  | .greater => (orderOf op a b).map fun o => .bool (o == .gt)
  | .atLeast => (orderOf op a b).map fun o => .bool (o != .lt)
  | _ => do
    let x ← operandOf op.text a
    let y ← operandOf op.text b
    arithmetic op x y

/-- An unset variable is null, while an unbound symbol is a fault. The right side of `&&` and `||`
has no value of its own where the left side decides. -/
def Term.value (scope : Scope) : Term → Except Fault Node
  | .literal n => .ok n
  | .variable name => .ok ((scope.environment.get? name).getD .null)
  | .symbol name =>
    match Fields.get? scope.symbols name with
    | some n => .ok n
    | none => .error (.unknownSymbol name)
  | .signed sign operand => do sign.apply (← operand.value scope)
  | .binary .and left right => do
    if (← left.value scope).truthy then return .bool (← right.value scope).truthy
    else return .bool false
  | .binary .or left right => do
    if (← left.value scope).truthy then return .bool true
    else return .bool (← right.value scope).truthy
  | .binary op left right => do
    let a ← left.value scope
    let b ← right.value scope
    op.apply a b

def evaluate? (scope : Scope) (s : List Char) : Except Fault Node := do
  (← readTerm (← scan s)).value scope

end LayeredConfig.Formula
