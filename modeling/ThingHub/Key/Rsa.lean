import ThingHub.Key.Modular

/-! Private keys for RSA, with the numbers that speed up their use. Whether the factors
are prime is not looked into. -/

namespace ThingHub

structure RsaKey where
  modulus : Nat
  publicExponent : Nat
  privateExponent : Nat
  /-- The two factors of the modulus. -/
  p : Nat
  q : Nat
  /-- The private exponent, reduced for either factor. -/
  exponentP : Nat
  exponentQ : Nat
  /-- The inverse of `q` modulo `p`. -/
  coefficient : Nat
  deriving DecidableEq, Repr

namespace RsaKey

/-- How many binary digits a number has. -/
def bits (n : Nat) : Nat := if n = 0 then 0 else n.log2 + 1

def isOdd (n : Nat) : Bool := n % 2 = 1

/-- The size of a factor, in bits: half of that of the modulus, which is rounded up. -/
def half (key : RsaKey) : Nat := (bits key.modulus + 1) / 2

/-- The modulus has at least 2048 bits, counted in whole octets, and at most 4096; the
public exponent is odd, at least 65537, and has at most 33 bits. -/
def hasPublicPart (key : RsaKey) : Bool :=
  2048 ≤ (bits key.modulus + 7) / 8 * 8 && bits key.modulus ≤ 4096 && isOdd key.modulus &&
    65537 ≤ key.publicExponent && bits key.publicExponent ≤ 33 && isOdd key.publicExponent

/-- Both factors are odd, and half as long as the modulus in whole groups of 512 bits. -/
def hasFactors (key : RsaKey) : Bool :=
  isOdd key.p && isOdd key.q && bits key.p = key.half && bits key.q = key.half &&
    key.half % 512 = 0 && key.p * key.q = key.modulus

/-- The exponents are odd and below what they are reduced by, and the private one has
more bits than a factor. -/
def hasExponents (key : RsaKey) : Bool :=
  isOdd key.privateExponent && key.half < bits key.privateExponent &&
    key.privateExponent < key.modulus &&
    isOdd key.exponentP && key.exponentP < key.p &&
    isOdd key.exponentQ && key.exponentQ < key.q

/-- The coefficient is what it should be. For factors in the other order it is not used,
and the one that is used instead has to exist. -/
def hasCoefficient (key : RsaKey) : Bool :=
  if key.q < key.p then key.coefficient < key.p && key.coefficient * key.q % key.p = 1
  else key.p * Modular.inverse key.q (key.p % key.q) % key.q = 1

def isConsistent (key : RsaKey) : Bool :=
  key.hasPublicPart && key.hasFactors && key.hasExponents && key.hasCoefficient

end RsaKey

end ThingHub
