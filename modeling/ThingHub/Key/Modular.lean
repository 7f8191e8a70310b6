/-! Powers and quotients modulo a number. -/

namespace ThingHub.Modular

/-- A power modulo a number, by repeated squaring. -/
def power (modulus base exponent : Nat) : Nat :=
  if exponent = 0 then 1 % modulus
  else
    let rest := power modulus (base * base % modulus) (exponent / 2)
    if exponent % 2 = 1 then rest * base % modulus else rest
termination_by exponent

/-- The inverse modulo a prime, for whatever the prime does not divide. -/
def inverse (prime n : Nat) : Nat := power prime n (prime - 2)

/-- The difference of two numbers modulo a number that is above both. -/
def sub (modulus m n : Nat) : Nat := (m + (modulus - n)) % modulus

end ThingHub.Modular
