import ThingHub.Number.Double

/-! The shortest decimal that reads back as a given double, and its text. Of the
shortest decimals the one nearest to the double is taken. -/

namespace ThingHub

/-- The digits of a positive decimal, without trailing zeros, and the power of ten of
the first digit. -/
structure Digits where
  digits : List Char
  power : Int
  deriving DecidableEq, Repr

/-- Where positional notation begins and ends, by the power of ten of the first digit. -/
structure NumberLayout where
  leastPositional : Int
  mostPositional : Int

namespace Magnitude

/-- The numbers that round to a positive double lie between two quotients of this
common denominator; the ends belong to them if the mantissa is even. -/
structure Interval where
  low : Nat
  high : Nat
  denominator : Nat
  closed : Bool

/-- Below a power of two the doubles lie twice as dense. -/
def interval (x : Magnitude) : Interval :=
  let narrow := x.mantissa = Nat.pow 2 52 ∧ minExponent < x.exponent
  let unit := scaled 1 4 (-x.exponent)
  { low := (4 * x.mantissa - if narrow then 1 else 2) * unit.1
    high := (4 * x.mantissa + 2) * unit.1
    denominator := unit.2
    closed := x.mantissa % 2 = 0 }

def Interval.contains (i : Interval) (num den : Nat) : Bool :=
  let low := i.low * den
  let high := i.high * den
  let value := num * i.denominator
  if i.closed then low ≤ value && value ≤ high else low < value && value < high

/-- The power of ten of the first digit of a positive quotient. -/
def leadingPower (num den : Nat) : Int :=
  if den ≤ num then ((Nat.toDigits 10 (num / den)).length : Int) - 1
  else
    let length : Int := (Nat.toDigits 10 (den / num)).length
    if num * Nat.pow 10 (length - 1).natAbs = den then 1 - length else -length

/-- The decimal with so many digits that lies next to `num / den`, if one of the two
candidates rounds to the double. Of two the nearer is taken, of equally near ones the
even one. -/
def candidate? (i : Interval) (num den : Nat) (grid : Int) : Option Nat :=
  let cell : Nat × Nat :=
    if grid < 0 then (1, Nat.pow 10 grid.natAbs) else (Nat.pow 10 grid.natAbs, 1)
  let below := (num * cell.2) / (den * cell.1)
  let inside (n : Nat) : Bool := n ≠ 0 && i.contains (n * cell.1) cell.2
  let twice := 2 * ((num * cell.2) % (den * cell.1))
  match inside below, inside (below + 1) with
  | true, true =>
    if twice < den * cell.1 then some below
    else if den * cell.1 < twice then some (below + 1)
    else if below % 2 = 0 then some below else some (below + 1)
  | true, false => some below
  | false, true => some (below + 1)
  | false, false => none

/-- Tries one digit, two digits and so on. -/
def search (i : Interval) (num den : Nat) (power : Int) : (left digits : Nat) → Nat × Int
  | 0, digits => (num / den, power - digits)
  | left + 1, digits =>
    let grid := power - digits
    match candidate? i num den grid with
    | some n => (n, grid)
    | none => search i num den power left (digits + 1)

/-- The shortest digits of a positive double. Seventeen always suffice. -/
def shortest (x : Magnitude) : Digits :=
  let value := x.ratio
  let found := search x.interval value.1 value.2 (leadingPower value.1 value.2) 17 0
  let digits := Nat.toDigits 10 found.1
  ⟨(digits.reverse.dropWhile (· = '0')).reverse, found.2 + (digits.length : Int) - 1⟩

end Magnitude

namespace Digits

/-- Positional notation with at least one digit on either side of the point. -/
def positional (d : Digits) : List Char :=
  if d.power < 0 then
    '0' :: '.' :: List.replicate (d.power.natAbs - 1) '0' ++ d.digits
  else
    let whole := d.power.natAbs + 1
    let before := d.digits.take whole
    let after := d.digits.drop whole
    before ++ List.replicate (whole - before.length) '0' ++
      '.' :: (if after.isEmpty then ['0'] else after)

/-- One digit before the point, and the exponent with its sign. -/
def scientific (d : Digits) : List Char :=
  let point := if d.digits.length ≤ 1 then d.digits else d.digits.take 1 ++ '.' :: d.digits.drop 1
  point ++ 'e' :: (if d.power < 0 then '-' else '+') :: Nat.toDigits 10 d.power.natAbs

def text (layout : NumberLayout) (d : Digits) : List Char :=
  if layout.leastPositional ≤ d.power ∧ d.power ≤ layout.mostPositional then d.positional
  else d.scientific

end Digits

/-- The shortest text of a double in a layout; zero keeps its sign. -/
def Double.text (layout : NumberLayout) (x : Double) : List Char :=
  let digits := if x.magnitude.mantissa = 0 then ['0', '.', '0']
    else x.magnitude.shortest.text layout
  if x.negative then '-' :: digits else digits

end ThingHub
