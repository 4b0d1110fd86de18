import LayeredConfig.Number.Double

/-! Number literals: an optional sign, digits with at most one point among them, and an optional
exponent. -/

namespace LayeredConfig.Number

structure Exponent where
  negative : Bool
  digits : List Char
  deriving Repr, DecidableEq

structure Literal where
  negative : Bool
  whole : List Char
  fraction : Option (List Char)
  exponent : Option Exponent
  deriving Repr, DecidableEq

def digitsValue (digits : List Char) : Nat :=
  digits.foldl (fun n c => 10 * n + (c.toNat - '0'.toNat)) 0

def scanSign : List Char → Bool × List Char
  | '-' :: rest => (true, rest)
  | '+' :: rest => (false, rest)
  | rest => (false, rest)

def scanDigits (s : List Char) : List Char × List Char := s.span Char.isDigit

def scanFraction : List Char → Option (List Char) × List Char
  | '.' :: rest => let (digits, rest) := scanDigits rest; (some digits, rest)
  | rest => (none, rest)

def scanPower (s : List Char) : Option (Exponent × List Char) :=
  let (negative, rest) := scanSign s
  let (digits, rest) := scanDigits rest
  if digits.isEmpty then none else some (⟨negative, digits⟩, rest)

def scanExponent : List Char → Option Exponent × List Char
  | c :: rest =>
    if c = 'e' ∨ c = 'E' then
      match scanPower rest with
      | some (exponent, rest) => (some exponent, rest)
      | none => (none, c :: rest)
    else (none, c :: rest)
  | [] => (none, [])

namespace Literal

/-- The longest literal that a text starts with, and the rest of the text. -/
def scan (s : List Char) : Option (Literal × List Char) :=
  let (negative, rest) := scanSign s
  let (whole, rest) := scanDigits rest
  let (fraction, rest) := scanFraction rest
  if (whole ++ fraction.getD []).isEmpty then none
  else
    let (exponent, rest) := scanExponent rest
    some (⟨negative, whole, fraction, exponent⟩, rest)

def read (s : List Char) : Option Literal :=
  match scan s with
  | some (literal, []) => some literal
  | _ => none

def digits (l : Literal) : List Char := l.whole ++ l.fraction.getD []

def power (l : Literal) : Int :=
  (match l.exponent with
    | some e => signed e.negative (digitsValue e.digits)
    | none => 0) - (l.fraction.getD []).length

def bits (l : Literal) : Nat :=
  let digits := l.digits.dropWhile (· == '0')
  decimalBits l.negative (digitsValue digits) digits.length l.power

def toDouble (l : Literal) : Double := .ofBits l.bits

def toFloat (l : Literal) : Float := floatOfBits l.bits

def isPlain (l : Literal) : Bool := l.fraction.isNone && l.exponent.isNone

def plainValue (l : Literal) : Int := signed l.negative (digitsValue l.whole)

def int64? (l : Literal) : Option Int64 :=
  if l.isPlain then Number.int64? l.plainValue else none

end Literal

def isPower : List Char → Bool
  | c :: rest =>
    let (digits, rest) := scanDigits (scanSign rest).2
    (c = 'e' ∨ c = 'E') && !digits.isEmpty && rest.isEmpty
  | [] => true

/-- Whether a text is a literal to its end. Other than for the scanner, an exponent without digits
spoils it. -/
def isNumeric (s : List Char) : Bool :=
  let (whole, rest) := scanDigits (scanSign s).2
  let (fraction, rest) := scanFraction rest
  !(whole ++ fraction.getD []).isEmpty && isPower rest

def numeral? (s : List Char) : Option Literal := if isNumeric s then Literal.read s else none

end LayeredConfig.Number
