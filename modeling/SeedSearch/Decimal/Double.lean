import SeedSearch.Decimal.Places

namespace SeedSearch.Decimal

inductive Size where
  | zero
  | finite (b : Binary)
  | infinite
  | undefined
  deriving DecidableEq, Repr

structure Double where
  negative : Bool
  size : Size
  deriving DecidableEq, Repr

-- A number that is in sight from both integers and doubles: count / 2^shift.
structure Fraction where
  count : Int
  shift : Nat
  deriving DecidableEq, Repr

def Fraction.le (a b : Fraction) : Bool := a.count * Nat.pow 2 b.shift ≤ b.count * Nat.pow 2 a.shift

-- There is none from 2^1024 on. The mantissa has all its 53 bits.
def Binary.ofNat? (n : Nat) : Option Binary :=
  let fits := roundDiv (n * Nat.pow 2 (52 - n.log2)) (Nat.pow 2 (n.log2 - 52))
  let exponent : Int := n.log2 - 52
  let b : Binary :=
    if fits = Nat.pow 2 53 then ⟨Nat.pow 2 52, exponent+1, true⟩
    else ⟨fits, exponent, fits = Nat.pow 2 52⟩
  if b.exponent ≤ 971 then some b else none

def Binary.fraction (b : Binary) : Fraction :=
  ⟨b.mantissa * Nat.pow 2 b.exponent.toNat, (-b.exponent).toNat⟩

namespace Double

def ofFloat (x : Float) : Double :=
  let bits := x.toBits.toNat
  let size : Size := match Binary.ofBits? bits with
    | some b => .finite b
    | none =>
      if bits % Nat.pow 2 63 = 0 then .zero
      else if bits % Nat.pow 2 52 = 0 then .infinite
      else .undefined
  ⟨Nat.pow 2 63 ≤ bits, size⟩

def ofInt? (n : Int) : Option Double :=
  if n = 0 then some ⟨false, .zero⟩
  else (Binary.ofNat? n.natAbs).map fun b => ⟨n < 0, .finite b⟩

def whole? (d : Double) : Option Int :=
  let signed (n : Nat) : Int := if d.negative then -n else n
  match d.size with
  | .zero => some 0
  | .finite b => some (signed b.whole)
  | _ => none

end Double

end SeedSearch.Decimal
