import LayeredConfig.Number.Shortest

namespace LayeredConfig.Number

structure Layout where
  tie : Tie
  positional : Option (Int × Int)
  keepsFraction : Bool
  writesPlus : Bool

def zeros (n : Nat) : List Char := List.replicate n '0'

def Digits.positional (d : Digits) (keepsFraction : Bool) : List Char :=
  if d.point ≤ 0 then '0' :: '.' :: zeros (-d.point).toNat ++ d.digits
  else
    let n := d.point.toNat
    if n < d.digits.length then d.digits.take n ++ '.' :: d.digits.drop n
    else d.digits ++ zeros (n - d.digits.length) ++ if keepsFraction then ['.', '0'] else []

def Digits.scientific (d : Digits) (writesPlus : Bool) : List Char :=
  let exponent := d.point - 1
  let mantissa := match d.digits with
    | first :: second :: rest => first :: '.' :: second :: rest
    | short => short
  let sign := if exponent < 0 then ['-'] else if writesPlus then ['+'] else []
  mantissa ++ 'e' :: sign ++ Nat.toDigits 10 exponent.natAbs

def Layout.isPositional (l : Layout) (d : Digits) : Bool :=
  match l.positional with
  | none => true
  | some (low, high) => low ≤ d.point - 1 && d.point - 1 < high

def Layout.magnitude (l : Layout) (significand : Nat) (exponent : Int) : List Char :=
  if significand = 0 then if l.keepsFraction then ['0', '.', '0'] else ['0']
  else
    let d := shortest l.tie significand exponent
    if l.isPositional d then d.positional l.keepsFraction else d.scientific l.writesPlus

def minus (negative : Bool) (s : List Char) : List Char := if negative then '-' :: s else s

def Layout.text (l : Layout) (x : Float) : String :=
  match Double.ofFloat x with
  | .nan => "NaN"
  | .infinite negative => String.ofList (minus negative ['i', 'n', 'f'])
  | .finite negative m e => String.ofList (minus negative (l.magnitude m e))

def plainLayout : Layout := ⟨.up, none, false, false⟩

def diagnosticLayout : Layout := ⟨.up, some (-4, 16), true, false⟩

def jsonLayout : Layout := ⟨.even, some (-5, 16), true, true⟩

end LayeredConfig.Number
