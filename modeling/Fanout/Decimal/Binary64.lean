/-!
Floating-point numbers of 64 bits as exact data: a sign, a significand below `2 ^ 53` and a power
of two. Results are rounded to nearest, ties to even, in the arithmetic of natural numbers.
-/

namespace Fanout.Decimal

/-- A finite number: `± significand · 2 ^ exponent`. In canonical form the significand has 53 bits,
or fewer together with the least exponent. -/
structure Binary64 where
  negative : Bool
  significand : Nat
  exponent : Int
deriving DecidableEq, Repr

namespace Binary64

/-- The exponent of the smallest positive number. -/
def leastExponent : Int := -1074

/-- The exponent of the largest finite number. -/
def greatestExponent : Int := 971

/-- The quotient rounded to nearest, ties to even. -/
def roundedQuotient (num den : Nat) : Nat :=
  let q := num / den
  let twice := 2 * (num % den)
  if twice < den then q else if den < twice then q + 1 else q + q % 2

/-- The exponent at which a positive quotient has a significand of 53 bits, or the least one. -/
def exponentOf (num den : Nat) : Int :=
  let k : Int := (Nat.log2 num : Int) - (Nat.log2 den : Int)
  let reaches := if 0 ≤ k then den <<< k.toNat ≤ num else den ≤ num <<< (-k).toNat
  max (if reaches then k - 52 else k - 53) leastExponent

def zero (negative : Bool) : Binary64 := ⟨negative, 0, leastExponent⟩

/-- Whether the number is zero, of either sign. -/
def isZero (x : Binary64) : Bool := x.significand == 0

/-- The number nearest to `± num / den`; `none` if it lies beyond the largest finite one. -/
def ofRatio (negative : Bool) (num den : Nat) : Option Binary64 :=
  if num = 0 then some (zero negative)
  else
    let e := exponentOf num den
    let m := if 0 ≤ e then roundedQuotient num (den <<< e.toNat)
      else roundedQuotient (num <<< (-e).toNat) den
    let x : Binary64 :=
      if m = 1 <<< 53 then ⟨negative, 1 <<< 52, e + 1⟩ else ⟨negative, m, e⟩
    if greatestExponent < x.exponent then none else some x

def ofNat (n : Nat) : Option Binary64 := ofRatio false n 1

/-- The magnitude as a quotient. -/
def ratio (x : Binary64) : Nat × Nat :=
  if 0 ≤ x.exponent then (x.significand <<< x.exponent.toNat, 1)
  else (x.significand, 1 <<< (-x.exponent).toNat)

def mul (x y : Binary64) : Option Binary64 :=
  let (a, b) := x.ratio
  let (c, d) := y.ratio
  ofRatio (x.negative != y.negative) (a * c) (b * d)

/-- The rounded quotient by a number that is not zero. -/
def div (x y : Binary64) : Option Binary64 :=
  let (a, b) := x.ratio
  let (c, d) := y.ratio
  ofRatio (x.negative != y.negative) (a * d) (b * c)

def withSign (x : Binary64) (negative : Bool) : Binary64 := { x with negative := negative }

/-- The largest power of ten that is a finite number. -/
def greatestPower : Nat := 308

def powerOfTen (k : Nat) : Option Binary64 := ofNat (Nat.pow 10 k)

/-- A number times a power of ten within the table of powers, rounded once. -/
def scaleOnce (x : Binary64) (e : Int) : Option Binary64 :=
  (powerOfTen e.natAbs).bind fun p => if 0 ≤ e then x.mul p else x.div p

/-- A number divided so many times by the largest power of ten, each quotient rounded. -/
def stepDown : Nat → Binary64 → Option Binary64
  | 0, x => some x
  | k + 1, x =>
    if x.isZero then some x else (x.scaleOnce (-(greatestPower : Int))).bind (stepDown k)

/-- A number times a power of ten. Below the table of powers the exponent is reached in several
quotients; beyond the table only zero has a product. -/
def scale (x : Binary64) (e : Int) : Option Binary64 :=
  if e.natAbs ≤ greatestPower then x.scaleOnce e
  else if x.isZero then some x
  else if 0 ≤ e then none
  else
    let k := (e.natAbs - 1) / greatestPower
    (stepDown k x).bind fun y => y.scaleOnce (e + greatestPower * k)

end Binary64

end Fanout.Decimal
