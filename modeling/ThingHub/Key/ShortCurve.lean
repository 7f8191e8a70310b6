import ThingHub.Key.Modular

/-! Elliptic curves `y² = x³ - 3 x + b` over a prime field. The public key of a secret
number is that multiple of a fixed point, the generator. -/

namespace ThingHub

/-- A point with its two coordinates; none is the point at infinity. -/
abbrev CurvePoint := Option (Nat × Nat)

structure ShortCurve where
  /-- The octets of a coordinate, and of a secret. -/
  width : Nat
  prime : Nat
  /-- How many multiples the generator has. -/
  order : Nat
  generator : Nat × Nat
  deriving DecidableEq, Repr

namespace ShortCurve

/-- The third point on a line through two points, with its sign changed. -/
def reflect (curve : ShortCurve) (slope x₁ y₁ x₂ : Nat) : Nat × Nat :=
  let x := Modular.sub curve.prime (slope * slope % curve.prime) ((x₁ + x₂) % curve.prime)
  (x, Modular.sub curve.prime (slope * Modular.sub curve.prime x₁ x % curve.prime) y₁)

/-- Points are added along the line through them; for a point and itself that is the
tangent. -/
def add (curve : ShortCurve) : CurvePoint → CurvePoint → CurvePoint
  | none, q => q
  | p, none => p
  | some (x₁, y₁), some (x₂, y₂) =>
    let m := curve.prime
    if x₁ = x₂ then
      if (y₁ + y₂) % m = 0 then none
      else
        let slope := (3 * x₁ * x₁ + (m - 3)) % m * Modular.inverse m (2 * y₁ % m) % m
        some (curve.reflect slope x₁ y₁ x₂)
    else
      let slope := Modular.sub m y₂ y₁ * Modular.inverse m (Modular.sub m x₂ x₁) % m
      some (curve.reflect slope x₁ y₁ x₂)

/-- The multiple of a point, by repeated doubling. -/
def multiply (curve : ShortCurve) (n : Nat) (p : CurvePoint) : CurvePoint :=
  if n = 0 then none
  else
    let rest := curve.multiply (n / 2) (curve.add p p)
    if n % 2 = 1 then curve.add p rest else rest
termination_by n

/-- A secret number is neither zero nor as large as the order. -/
def isSecret (curve : ShortCurve) (n : Nat) : Bool := 1 ≤ n && n < curve.order

def publicPoint (curve : ShortCurve) (secret : Nat) : CurvePoint :=
  curve.multiply secret (some curve.generator)

def p256 : ShortCurve where
  width := 32
  prime := Nat.pow 2 256 - Nat.pow 2 224 + Nat.pow 2 192 + Nat.pow 2 96 - 1
  order := 0xffffffff00000000ffffffffffffffffbce6faada7179e84f3b9cac2fc632551
  generator :=
    (0x6b17d1f2e12c4247f8bce6e563a440f277037d812deb33a0f4a13945d898c296,
      0x4fe342e2fe1a7f9b8ee7eb4a7c0f9e162bce33576b315ececbb6406837bf51f5)

def p384 : ShortCurve where
  width := 48
  prime := Nat.pow 2 384 - Nat.pow 2 128 - Nat.pow 2 96 + Nat.pow 2 32 - 1
  order := Nat.pow 2 384 - 0x389cb27e0bc8d220a7e5f24db74f58851313e695333ad68d
  generator :=
    (0xaa87ca22be8b05378eb1c71ef320ad746e1d3b628ba79b98 * Nat.pow 2 192 +
        0x59f741e082542a385502f25dbf55296c3a545e3872760ab7,
      0x3617de4a96262c6f5d9e98bf9292dc29f8f41dbd289a147c * Nat.pow 2 192 +
        0xe9da3113b5f0b8c00a60b1ce1d7e819d7a431d7c90ea0e5f)

end ShortCurve

end ThingHub
