import LayeredConfig.Formula.Lexeme

namespace LayeredConfig.Formula

inductive Sign where
  | minus | plus | not
  deriving Repr, DecidableEq

inductive Operator where
  | or | and
  | equal | unequal | less | atMost | greater | atLeast
  | add | sub | mul | div | rem
  deriving Repr, DecidableEq

inductive Term where
  | literal (value : Node)
  | variable (name : String)
  | symbol (name : String)
  | signed (sign : Sign) (operand : Term)
  | binary (operator : Operator) (left right : Term)
  deriving Repr

def Operator.text : Operator → String
  | .or => "||"
  | .and => "&&"
  | .equal => "=="
  | .unequal => "!="
  | .less => "<"
  | .atMost => "<="
  | .greater => ">"
  | .atLeast => ">="
  | .add => "+"
  | .sub => "-"
  | .mul => "*"
  | .div => "/"
  | .rem => "%"

def Sign.text : Sign → String
  | .minus => "-"
  | .plus => "+"
  | .not => "!"

end LayeredConfig.Formula
