import ThingHub.Hash.Sha512
import ThingHub.Key.Modular

/-! Keys on the curve `-x² + y² = 1 + d x² y²` over the field of `2 ^ 255 - 19` elements.
A secret is a seed of octets; the public key is a point in octets. -/

namespace ThingHub.Edwards

def prime : Nat := Nat.pow 2 255 - 19

/-- The constant `d` of the curve, which is `-121665 / 121666`. -/
def coefficient : Nat := (prime - 121665) * Modular.inverse prime 121666 % prime

/-- The point whose multiples are the public keys. -/
def generator : Nat × Nat :=
  (15112221349535400772501151409588531511454012693041857206046113283949847762202,
    4 * Modular.inverse prime 5 % prime)

/-- The sum of two points. The denominators are never zero on this curve. -/
def add : Nat × Nat → Nat × Nat → Nat × Nat
  | (x₁, y₁), (x₂, y₂) =>
    let product := coefficient * (x₁ * x₂ % prime * (y₁ * y₂ % prime) % prime) % prime
    let x := (x₁ * y₂ + x₂ * y₁) * Modular.inverse prime (1 + product) % prime
    let y :=
      (y₁ * y₂ + x₁ * x₂) * Modular.inverse prime (Modular.sub prime 1 product) % prime
    (x, y)

/-- The multiple of a point, by repeated doubling. -/
def multiply (n : Nat) (p : Nat × Nat) : Nat × Nat :=
  if n = 0 then (0, 1)
  else
    let rest := multiply (n / 2) (add p p)
    if n % 2 = 1 then add p rest else rest
termination_by n

def littleEndian (bytes : Bytes) : Nat :=
  bytes.foldr (fun b n => b.toNat + 256 * n) 0

/-- The secret number of a seed: half of its hash, with the lowest three bits cleared and
the highest bit at its place. -/
def secret (seed : Bytes) : Nat :=
  littleEndian ((Sha512.hash seed).take 32) % Nat.pow 2 254 / 8 * 8 + Nat.pow 2 254

/-- A point in octets: one coordinate, and the parity of the other one in the top bit. -/
def encode : Nat × Nat → Bytes
  | (x, y) => (Bytes.ofNat 32 (y + x % 2 * Nat.pow 2 255)).reverse

def publicKey (seed : Bytes) : Bytes := encode (multiply (secret seed) generator)

end ThingHub.Edwards
