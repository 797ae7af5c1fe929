import SeedSearch.Decimal.Double

namespace SeedSearch.Decimal

-- How a number is written with its fewest digits: in full below 10^16 and down
-- to some power of ten, and otherwise with an exponent.
structure Layout where
  smallest : Int
  exponent : Int → String

namespace Layout

private def zeros (n : Nat) : List Char := List.replicate n '0'

private def full (digits : List Char) (power : Int) : List Char :=
  if power < 0 then '0' :: '.' :: zeros (-power-1).toNat ++ digits
  else
    let whole := digits.take (power+1).toNat
    let behind := digits.drop (power+1).toNat
    whole ++ zeros ((power+1).toNat - whole.length) ++ '.' :: (if behind.isEmpty then ['0'] else behind)

private def short (digits : List Char) : List Char :=
  match digits with
  | [] => []
  | [c] => [c]
  | c :: rest => c :: '.' :: rest

def decimal (l : Layout) (d : Decimal) : String :=
  let digits := Nat.toDigits 10 d.digits
  let power : Int := digits.length - 1 + d.exponent
  if l.smallest ≤ power && power < 16 then String.ofList (full digits power)
  else String.ofList (short digits) ++ "e" ++ l.exponent power

-- A number that is not finite has no digits; `other` is what stands for it.
def number (l : Layout) (other : Double → String) (x : Float) : String :=
  let d := Double.ofFloat x
  let sign := if d.negative then "-" else ""
  match d.size with
  | .finite b => sign ++ l.decimal b.shortest
  | .zero => sign ++ "0.0"
  | _ => other d

end Layout

end SeedSearch.Decimal
