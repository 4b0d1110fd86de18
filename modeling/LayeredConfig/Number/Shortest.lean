import LayeredConfig.Number.Double

/-! The fewest decimal digits that read back as a given double, the nearest of those. -/

namespace LayeredConfig.Number

inductive Tie where
  | up
  | even
  deriving Repr, DecidableEq

structure Digits where
  digits : List Char
  point : Int
  deriving Repr, DecidableEq

def width (n : Nat) : Nat := (Nat.toDigits 10 n).length

def decade (num den : Nat) : Int :=
  let k : Int := width num - width den
  if den * powTen k.toNat ≤ num * powTen (-k).toNat then k + 1 else k

structure Interval where
  low : Nat
  high : Nat
  closed : Bool

def interval (significand : Nat) (exponent : Int) : Interval where
  low := if significand = exponentUnit ∧ -1074 < exponent then 4 * significand - 1 else 4 * significand - 2
  high := 4 * significand + 2
  closed := significand % 2 == 0

def Interval.has (i : Interval) (grid quarter c : Nat) : Bool :=
  if i.closed then i.low * quarter ≤ c * grid && c * grid ≤ i.high * quarter
  else i.low * quarter < c * grid && c * grid < i.high * quarter

def onGrid (tie : Tie) (m : Nat) (exponent place : Int) : Option Nat :=
  let grid := powTen place.toNat * powTwo (2 - exponent).toNat
  let quarter := powTen (-place).toNat * powTwo (exponent - 2).toNat
  let c := 4 * m * quarter / grid
  let r := 4 * m * quarter % grid
  let i := interval m exponent
  match i.has grid quarter c, i.has grid quarter (c + 1) with
  | false, false => none
  | true, false => some c
  | false, true => some (c + 1)
  | true, true =>
    if 2 * r < grid then some c
    else if grid < 2 * r then some (c + 1)
    else match tie with
      | .up => some (c + 1)
      | .even => some (if c % 2 = 0 then c else c + 1)

/-- Seventeen digits always read back, so the search ends at the latest there. -/
def shortest (tie : Tie) (significand : Nat) (exponent : Int) : Digits :=
  let top := decade (significand * powTwo exponent.toNat) (powTwo (-exponent).toNat)
  let found := (List.range 17).findSome? fun (n : Nat) =>
    (onGrid tie significand exponent (top - (n + 1))).map fun c => (c, top - (n + 1))
  let (c, place) := found.getD (significand, exponent)
  let all := Nat.toDigits 10 c
  ⟨(all.reverse.dropWhile (· == '0')).reverse, place + all.length⟩

end LayeredConfig.Number
