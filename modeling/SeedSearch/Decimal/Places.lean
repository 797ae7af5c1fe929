import SeedSearch.Decimal

namespace SeedSearch.Decimal

def roundDiv (num den : Nat) : Nat :=
  let below := num / den
  let left := num % den
  if 2*left < den then below
  else if den < 2*left then below + 1
  else below + below % 2

def Binary.inUnits (b : Binary) (unit : Int) : Nat :=
  roundDiv (b.mantissa * Nat.pow 2 b.exponent.toNat * Nat.pow 10 (-unit).toNat)
    (Nat.pow 2 (-b.exponent).toNat * Nat.pow 10 unit.toNat)

def Binary.whole (b : Binary) : Nat :=
  b.mantissa * Nat.pow 2 b.exponent.toNat / Nat.pow 2 (-b.exponent).toNat

-- Rounding may make the digits one longer, which the next grid takes back.
private def Binary.leadingFrom (b : Binary) (behind : Nat) (power : Int) : Nat → Nat × Int
  | 0 => (0, 0)
  | fuel+1 =>
    let n := b.inUnits (power - behind)
    if Nat.pow 10 (behind+1) ≤ n then b.leadingFrom behind (power+1) fuel
    else if n < Nat.pow 10 behind then b.leadingFrom behind (power-1) fuel
    else (n, power)

def Binary.leading (b : Binary) (behind : Nat) : Nat × Int :=
  let d := b.shortest
  let power : Int := (Nat.toDigits 10 d.digits).length - 1 + d.exponent
  b.leadingFrom behind power 4

end SeedSearch.Decimal
