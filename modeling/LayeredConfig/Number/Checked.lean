import LayeredConfig.Number.Double

namespace LayeredConfig.Number

def checkedNeg (n : Int64) : Option Int64 :=
  if n.toBitVec.negOverflow then none else some (-n)

def checkedAdd (a b : Int64) : Option Int64 :=
  if a.toBitVec.saddOverflow b.toBitVec then none else some (a + b)

def checkedSub (a b : Int64) : Option Int64 :=
  if a.toBitVec.ssubOverflow b.toBitVec then none else some (a - b)

def checkedMul (a b : Int64) : Option Int64 :=
  if a.toBitVec.smulOverflow b.toBitVec then none else some (a * b)

-- the lowest word has no quotient by minus one, and then it has no remainder either
def hasQuotient (a b : Int64) : Bool := !(b == 0 || a == Int64.minValue && b == -1)

def checkedDiv (a b : Int64) : Option Int64 := if hasQuotient a b then some (a / b) else none

def checkedRem (a b : Int64) : Option Int64 := if hasQuotient a b then some (a % b) else none

end LayeredConfig.Number
