import Fanout.Decimal.Binary64
import Fanout.Decimal.Integer

/-!
The shortest decimal that reads back as a given number: of the decimals with the fewest digits
that round to it, the nearest one. A `Layout` says how digits and exponent are then written.
-/

namespace Fanout.Decimal

/-- A positive decimal by its digits, the first of which counts `10 ^ exponent`. -/
structure Scientific where
  digits : List Nat
  exponent : Int
deriving DecidableEq, Repr

/-- The reals that round to a number, all over one denominator. The ends belong to them when the
significand is even. -/
structure Interval where
  low : Nat
  mid : Nat
  high : Nat
  den : Nat
  closed : Bool

namespace Interval

/-- The interval of a positive number. Below a power of two the numbers lie twice as close. -/
def ofBinary64 (x : Binary64) : Interval :=
  let below := if x.significand = 1 <<< 52 ∧ Binary64.leastExponent < x.exponent then 1 else 2
  let scale := if 2 ≤ x.exponent then 1 <<< (x.exponent - 2).toNat else 1
  { low := (4 * x.significand - below) * scale
    mid := 4 * x.significand * scale
    high := (4 * x.significand + 2) * scale
    den := if 2 ≤ x.exponent then 1 else 1 <<< (2 - x.exponent).toNat
    closed := x.significand % 2 = 0 }

/-- Whether `num / den` lies in the interval. -/
def covers (i : Interval) (num den : Nat) : Bool :=
  let a := num * i.den
  if i.closed then i.low * den ≤ a && a ≤ i.high * den
  else i.low * den < a && a < i.high * den

/-- The exponent of the first decimal digit of the midpoint. -/
def decimalExponent (i : Interval) : Int :=
  if i.den ≤ i.mid then ((Decimal.digits (i.mid / i.den)).length : Int) - 1
  else -((Decimal.digits ((i.den + i.mid - 1) / i.mid - 1)).length : Int)

/-- The multiple of `10 ^ p` in the interval that is nearest to the midpoint. Only the two
neighbours of the midpoint come into question; of equally near ones the even multiple is taken. -/
def onGrid (i : Interval) (p : Int) : Option Nat :=
  let (num, den) := if 0 ≤ p then (Nat.pow 10 p.toNat, 1) else (1, Nat.pow 10 (-p).toNat)
  -- the midpoint in units of the grid is `mid * den / (i.den * num)`
  let n := i.mid * den
  let d := i.den * num
  let q := n / d
  let twice := 2 * (n % d)
  let lower := 0 < q && i.covers (q * num) den
  let upper := i.covers ((q + 1) * num) den
  if lower && upper then
    some (if twice < d then q else if d < twice then q + 1 else q + q % 2)
  else if lower then some q
  else if upper then some (q + 1)
  else none

end Interval

def stripZeros (l : List Nat) : List Nat := (l.reverse.dropWhile (· == 0)).reverse

/-- The shortest decimal of a positive number. Seventeen digits always suffice. -/
def shortest (x : Binary64) : Scientific :=
  let i := Interval.ofBinary64 x
  let k := i.decimalExponent
  let hit := (List.range 17).findSome? fun n : Nat =>
    (i.onGrid (k - n)).map fun q => (q, k - n)
  match hit with
  | none => ⟨[], 0⟩
  | some (q, p) =>
    let ds := digits q
    ⟨stripZeros ds, p + ds.length - 1⟩

/-- How a decimal is written: with a point and no exponent when the first digit counts at least
`10 ^ least` and less than `10 ^ limit`, else with an exponent. -/
structure Layout where
  least : Int
  limit : Int
  signedExponent : Bool
deriving DecidableEq, Repr

namespace Layout

def plain (l : List Nat) : List Char := l.map digitChar

/-- A whole part and a fraction, neither of them empty. -/
def positional (s : Scientific) : List Char :=
  if s.exponent < 0 then
    '0' :: '.' :: plain (List.replicate (-s.exponent - 1).toNat 0 ++ s.digits)
  else
    let whole := s.exponent.toNat + 1
    let padded := s.digits ++ List.replicate (whole - s.digits.length) 0
    let fraction := padded.drop whole
    plain (padded.take whole) ++ '.' :: plain (if fraction.isEmpty then [0] else fraction)

/-- A first digit, the others after a point if there are any, and the exponent. -/
def scientific (l : Layout) (s : Scientific) : List Char :=
  let sign := if s.exponent < 0 then ['-'] else if l.signedExponent then ['+'] else []
  let exponent := 'e' :: sign ++ naturalText s.exponent.natAbs
  match s.digits with
  | [] => exponent
  | d :: [] => digitChar d :: exponent
  | d :: ds => digitChar d :: '.' :: plain ds ++ exponent

/-- The text of a number; zero is written positionally. -/
def text (l : Layout) (x : Binary64) : List Char :=
  let sign := if x.negative then ['-'] else []
  if x.isZero then sign ++ positional ⟨[0], 0⟩
  else
    let s := shortest x
    sign ++ if l.least ≤ s.exponent ∧ s.exponent < l.limit then positional s else l.scientific s

end Layout

end Fanout.Decimal
