namespace LayeredConfig.Number

def powTwo (n : Nat) : Nat := Nat.pow 2 n

def powTen (n : Nat) : Nat := Nat.pow 10 n

def signUnit : Nat := 0x8000000000000000

def exponentUnit : Nat := 0x10000000000000

/-- The value of a double; a finite one is `± significand * 2 ^ exponent`. -/
inductive Double where
  | nan
  | infinite (negative : Bool)
  | finite (negative : Bool) (significand : Nat) (exponent : Int)
  deriving Repr, DecidableEq

def Double.ofBits (bits : Nat) : Double :=
  let negative := decide (signUnit ≤ bits)
  let field := bits / exponentUnit % 2048
  let fraction := bits % exponentUnit
  if field = 2047 then if fraction = 0 then .infinite negative else .nan
  else if field = 0 then .finite negative fraction (-1074)
  else .finite negative (exponentUnit + fraction) (field - 1075)

def Double.ofFloat (x : Float) : Double := ofBits x.toBits.toNat

def roundHalfEven (num den : Nat) : Nat :=
  let q := num / den
  let r := num % den
  if 2 * r < den ∨ (2 * r = den ∧ q % 2 = 0) then q else q + 1

def lastPlace (num den : Nat) : Int :=
  let k : Int := num.log2 - den.log2
  let e := if num * powTwo (-k).toNat < den * powTwo k.toNat then k - 53 else k - 52
  max e (-1074)

def infinityBits : Nat := 2047 * exponentUnit

/-- The bits of the double nearest to `num / den`; a carry out of the significand moves into the
exponent by itself. -/
def nearestBits (num den : Nat) : Nat :=
  if num = 0 then 0
  else
    let e := lastPlace num den
    let m := roundHalfEven (num * powTwo (-e).toNat) (den * powTwo e.toNat)
    min ((e + 1074).toNat * exponentUnit + m) infinityBits

def signBit (negative : Bool) : Nat := if negative then signUnit else 0

def decimalBits (negative : Bool) (digits width : Nat) (exponent : Int) : Nat :=
  signBit negative +
    if digits = 0 ∨ width + exponent < -330 then 0
    else if 330 < exponent then infinityBits
    else nearestBits (digits * powTen exponent.toNat) (powTen (-exponent).toNat)

def floatOfBits (bits : Nat) : Float := Float.ofBits (UInt64.ofNat bits)

def signed (negative : Bool) (n : Nat) : Int := if negative then -n else n

def Double.integer? : Double → Option Int
  | .finite negative m e =>
    let den := powTwo (-e).toNat
    if m % den = 0 then some (signed negative (m / den * powTwo e.toNat)) else none
  | _ => none

def minInt : Int := -0x8000000000000000

def maxInt : Int := 0x7FFFFFFFFFFFFFFF

def int64? (n : Int) : Option Int64 :=
  if minInt ≤ n ∧ n ≤ maxInt then some (Int64.ofInt n) else none

def clamp (n : Int) : Int64 := Int64.ofInt (max minInt (min maxInt n))

def Double.toInt64 : Double → Int64
  | .nan => 0
  | .infinite negative => clamp (if negative then minInt else maxInt)
  | .finite negative m e => clamp (signed negative (m * powTwo e.toNat / powTwo (-e).toNat))

def int64Bits (n : Int64) : Nat := signBit (n.toInt < 0) + nearestBits n.toInt.natAbs 1

def ofInt64 (n : Int64) : Float := floatOfBits (int64Bits n)

end LayeredConfig.Number
