/-! Finite double-precision numbers as exact values, with the rounding of IEEE 754:
to the nearest, a half to the even neighbour. -/

namespace ThingHub

/-- The number `mantissa * 2 ^ exponent`. A double has a mantissa below `2 ^ 53`, the
largest one that its exponent range allows. -/
structure Magnitude where
  mantissa : Nat
  exponent : Int
  deriving DecidableEq, Repr

/-- A finite double: a magnitude and its sign, which zero has too. -/
structure Double where
  negative : Bool
  magnitude : Magnitude
  deriving DecidableEq, Repr

namespace Magnitude

/-- The exponent of the smallest doubles. -/
def minExponent : Int := -1074

/-- The exponent of the largest doubles. -/
def maxExponent : Int := 971

def zero : Magnitude := ⟨0, minExponent⟩

/-- The quotient rounded to the nearest integer, a half to the even one. -/
def roundDiv (num den : Nat) : Nat :=
  let q := num / den
  let twice := 2 * (num % den)
  if twice < den then q
  else if den < twice then q + 1
  else if q % 2 = 0 then q else q + 1

/-- The quotient of two numbers after the divisor took the factor `2 ^ exponent`. -/
def scaled (num den : Nat) (exponent : Int) : Nat × Nat :=
  if exponent < 0 then (num * Nat.pow 2 exponent.natAbs, den)
  else (num, den * Nat.pow 2 exponent.natAbs)

/-- The double nearest to a quotient; none if it is too large. -/
def ofRatio? (num den : Nat) : Option Magnitude :=
  if num = 0 then some zero
  else
    let guess : Int := (num.log2 : Int) - den.log2 - 52
    let leading := scaled num den (guess + 52)
    let exponent := max (if leading.1 < leading.2 then guess - 1 else guess) minExponent
    let ratio := scaled num den exponent
    let mantissa := roundDiv ratio.1 ratio.2
    let rounded : Magnitude :=
      if mantissa = Nat.pow 2 53 then ⟨Nat.pow 2 52, exponent + 1⟩ else ⟨mantissa, exponent⟩
    if maxExponent < rounded.exponent then none else some rounded

/-- The value as a quotient. -/
def ratio (x : Magnitude) : Nat × Nat :=
  if x.exponent < 0 then (x.mantissa, Nat.pow 2 x.exponent.natAbs)
  else (x.mantissa * Nat.pow 2 x.exponent.natAbs, 1)

def ofNat? (n : Nat) : Option Magnitude := ofRatio? n 1

def mul? (x y : Magnitude) : Option Magnitude :=
  ofRatio? (x.ratio.1 * y.ratio.1) (x.ratio.2 * y.ratio.2)

/-- The rounded quotient by a number that is not zero. -/
def div? (x y : Magnitude) : Option Magnitude :=
  ofRatio? (x.ratio.1 * y.ratio.2) (x.ratio.2 * y.ratio.1)

/-- Moves a double by a power of ten that is not above `10 ^ 308`, by one rounded
multiplication or division with the double nearest to that power. -/
def shift? (x : Magnitude) (power : Int) : Option Magnitude :=
  (ofNat? (Nat.pow 10 power.natAbs)).bind fun ten =>
    if power < 0 then div? x ten else mul? x ten

/-- Moves a double by any power of ten, in steps of `10 ^ 308` on the way down. The
steps are bounded: after four of them every double is zero. -/
def shiftBy? : (steps : Nat) → Magnitude → Int → Option Magnitude
  | 0, x, power => if x.mantissa = 0 then some x else if 0 < power then none else some zero
  | steps + 1, x, power =>
    if power.natAbs ≤ 308 then shift? x power
    else if x.mantissa = 0 then some x
    else if 0 < power then none
    else (shift? x (-308)).bind fun x => shiftBy? steps x (power + 308)

/-- The double read from a decimal: the significand is rounded first, then moved by the
power of ten. None if the number is too large. -/
def ofDecimal? (significand : Nat) (power : Int) : Option Magnitude :=
  (ofNat? significand).bind fun x => shiftBy? 4 x power

end Magnitude

end ThingHub
