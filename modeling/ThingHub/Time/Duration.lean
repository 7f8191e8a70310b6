/-! Spans of time, exact to the nanosecond. -/

namespace ThingHub

structure Duration where
  nanos : Nat
  deriving DecidableEq, Repr

namespace Duration

def zero : Duration := ⟨0⟩

def ofSecs (secs : Nat) : Duration := ⟨secs * 1000000000⟩

def ofMillis (millis : Nat) : Duration := ⟨millis * 1000000⟩

/-- Whole seconds. -/
def secs (d : Duration) : Nat := d.nanos / 1000000000

/-- Whole milliseconds. -/
def millis (d : Duration) : Nat := d.nanos / 1000000

/-- Nanoseconds beyond the whole seconds. -/
def subsec (d : Duration) : Nat := d.nanos % 1000000000

def add (a b : Duration) : Duration := ⟨a.nanos + b.nanos⟩

def scale (n : Nat) (d : Duration) : Duration := ⟨n * d.nanos⟩

def min (a b : Duration) : Duration := ⟨Nat.min a.nanos b.nanos⟩

instance : LE Duration := ⟨fun a b => a.nanos ≤ b.nanos⟩

instance (a b : Duration) : Decidable (a ≤ b) := inferInstanceAs (Decidable (a.nanos ≤ b.nanos))

instance : LT Duration := ⟨fun a b => a.nanos < b.nanos⟩

instance (a b : Duration) : Decidable (a < b) := inferInstanceAs (Decidable (a.nanos < b.nanos))

/-- A number with the digits behind its point, without trailing zeros: `part` counts
units of `10 ^ -places`. -/
def decimal (whole part places : Nat) : List Char :=
  let digits := Nat.toDigits 10 part
  let padded := List.replicate (places - digits.length) '0' ++ digits
  let kept := (padded.reverse.dropWhile (· = '0')).reverse
  Nat.toDigits 10 whole ++ if kept.isEmpty then [] else '.' :: kept

/-- The span in the largest unit in which it is at least one. -/
def text (d : Duration) : String :=
  String.ofList <|
    if 1000000000 ≤ d.nanos then decimal d.secs d.subsec 9 ++ ['s']
    else if 1000000 ≤ d.nanos then
      decimal (d.nanos / 1000000) (d.nanos % 1000000) 6 ++ ['m', 's']
    else if 1000 ≤ d.nanos then decimal (d.nanos / 1000) (d.nanos % 1000) 3 ++ ['µ', 's']
    else decimal d.nanos 0 0 ++ ['n', 's']

end Duration

end ThingHub
