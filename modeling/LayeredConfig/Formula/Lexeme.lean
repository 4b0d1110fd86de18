import LayeredConfig.Node
import LayeredConfig.Number.Layout
import LayeredConfig.Text.Quoted

namespace LayeredConfig.Formula

open Number Text

inductive Lexeme where
  | int (value : Int64)
  | float (value : Float)
  | text (value : String)
  | bool (value : Bool)
  | null
  | variable (name : String)
  | symbol (name : String)
  | opening | closing
  | plus | minus | star | slash | percent
  | equal | unequal | less | atMost | greater | atLeast
  | and | or | not
  deriving Repr

def Lexeme.describe : Lexeme → String
  | .int n => "Int(" ++ toString n.toInt ++ ")"
  | .float x => "Float(" ++ diagnosticLayout.text x ++ ")"
  | .text s => "Str(" ++ quoted s ++ ")"
  | .bool true => "Bool(true)"
  | .bool false => "Bool(false)"
  | .null => "Null"
  | .variable name => "Env(" ++ quoted name ++ ")"
  | .symbol name => "Symbol(" ++ quoted name ++ ")"
  | .opening => "LParen"
  | .closing => "RParen"
  | .plus => "Plus"
  | .minus => "Minus"
  | .star => "Star"
  | .slash => "Slash"
  | .percent => "Percent"
  | .equal => "Eq"
  | .unequal => "Ne"
  | .less => "Lt"
  | .atMost => "Le"
  | .greater => "Gt"
  | .atLeast => "Ge"
  | .and => "And"
  | .or => "Or"
  | .not => "Not"

inductive Fault where
  | unexpectedChar (c : Char) (offset : Nat)
  | unterminatedString
  | invalidNumber (text : String)
  | emptyReference
  | unknownIdentifier (text : String)
  | unexpectedToken (token : String)
  | unexpectedEnd
  | unknownSymbol (name : String)
  | invalidOperand (operator : String) (kind : Kind)
  | divisionByZero
  deriving Repr

def Fault.message : Fault → String
  | .unexpectedChar c offset =>
    "unexpected character '" ++ c.toString ++ "' at offset " ++ toString offset
  | .unterminatedString => "unterminated string literal"
  | .invalidNumber text => "invalid number literal: " ++ text
  | .emptyReference => "empty reference after '$'"
  | .unknownIdentifier text => "unknown identifier: " ++ text
  | .unexpectedToken token => "unexpected token: " ++ token
  | .unexpectedEnd => "unexpected end of expression"
  | .unknownSymbol name => "unknown symbol: $" ++ name
  | .invalidOperand operator kind =>
    "operator '" ++ operator ++ "' cannot be applied to " ++ kind.name
  | .divisionByZero => "division by zero"

end LayeredConfig.Formula
