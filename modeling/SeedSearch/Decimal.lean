namespace SeedSearch

-- digits · 10^exponent
structure Decimal where
  digits : Nat
  exponent : Int
  deriving DecidableEq, Repr

namespace Decimal

-- The positive number mantissa · 2^exponent among its neighbours: the gap
-- below it is half the gap above at the start of a binade.
structure Binary where
  mantissa : Nat
  exponent : Int
  narrowBelow : Bool
  deriving DecidableEq, Repr

def Binary.ofBits? (bits : Nat) : Option Binary :=
  let fraction := bits % Nat.pow 2 52
  let field := bits / Nat.pow 2 52 % Nat.pow 2 11
  if field = 0x7ff || (field = 0 && fraction = 0) then none
  else if field = 0 then some ⟨fraction, -1074, false⟩
  else some ⟨fraction + Nat.pow 2 52, Int.ofNat field - 1075, fraction = 0 && 1 < field⟩

private structure Ratio where
  num : Nat
  den : Nat

namespace Ratio

private def le (a b : Ratio) : Bool := a.num * b.den ≤ b.num * a.den
private def lt (a b : Ratio) : Bool := a.num * b.den < b.num * a.den

private def distance (a b : Ratio) : Ratio :=
  let x := a.num * b.den
  let y := b.num * a.den
  ⟨(x-y) + (y-x), a.den * b.den⟩

private def scaled (base n : Nat) (e : Int) : Ratio := ⟨n * base.pow e.toNat, base.pow (-e).toNat⟩

end Ratio

private def ratio (d : Decimal) : Ratio := .scaled 10 d.digits d.exponent

private def Binary.holds (b : Binary) (r : Ratio) : Bool :=
  let low : Ratio :=
    if b.narrowBelow then .scaled 2 (4*b.mantissa-1) (b.exponent-2)
    else .scaled 2 (2*b.mantissa-1) (b.exponent-1)
  let high : Ratio := .scaled 2 (2*b.mantissa+1) (b.exponent-1)
  if b.mantissa % 2 = 0 then low.le r && r.le high else low.lt r && r.lt high

-- Of the two neighbours on the grid of one decimal unit, the nearer one that
-- still rounds to the number, and the even one of two equally near.
private def Binary.onGrid? (b : Binary) (unit : Int) : Option Decimal :=
  let value : Ratio := .scaled 2 b.mantissa b.exponent
  let below := value.num * Nat.pow 10 (-unit).toNat / (value.den * Nat.pow 10 unit.toNat)
  let down : Decimal := ⟨below, unit⟩
  let up : Decimal := ⟨below+1, unit⟩
  match b.holds down.ratio, b.holds up.ratio with
  | false, false => none
  | true, false => some down
  | false, true => some up
  | true, true =>
    let toDown := Ratio.distance value down.ratio
    let toUp := Ratio.distance value up.ratio
    if toDown.lt toUp then some down
    else if toUp.lt toDown then some up
    else if below % 2 = 0 then some down else some up

private def Binary.search (b : Binary) (unit : Int) : Nat → Decimal
  | 0 => ⟨b.mantissa, 0⟩
  | fuel+1 => (b.onGrid? unit).getD (b.search (unit-1) fuel)

private def trim (d : Decimal) : Nat → Decimal
  | 0 => d
  | fuel+1 => if d.digits % 10 = 0 then trim ⟨d.digits/10, d.exponent+1⟩ fuel else d

-- The fewest digits that read back as the same double, the nearest of those.
-- Doubles stay below 10^309, and a grid of 10^-324 is finer than the finest.
def Binary.shortest (b : Binary) : Decimal := (b.search 309 (309+325)).trim 20

end Decimal

end SeedSearch
