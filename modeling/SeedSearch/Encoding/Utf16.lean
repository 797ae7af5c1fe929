import SeedSearch.Encoding.Fault

namespace SeedSearch.Encoding.Utf16

inductive Order where
  | little | big
  deriving DecidableEq, Repr

namespace Order

def name : Order → String
  | little => "utf-16-le"
  | big => "utf-16-be"

def unit : Order → UInt8 → UInt8 → Nat
  | little, a, b => b.toNat * 256 + a.toNat
  | big, a, b => a.toNat * 256 + b.toNat

end Order

def isHigh (u : Nat) : Bool := 0xd800 ≤ u && u ≤ 0xdbff
def isLow (u : Nat) : Bool := 0xdc00 ≤ u && u ≤ 0xdfff

def join (high low : Nat) : Char := Char.ofNat (0x10000 + (high-0xd800) * 1024 + (low-0xdc00))

def decodeFrom (order : Order) (final : Bool) (place : Nat) (done : List Char) :
    List UInt8 → Except Fault (List Char × List UInt8)
  | [] => .ok (done, [])
  | [a] =>
    if final then .error (.octets order.name [a] place (place+1) .truncated) else .ok (done, [a])
  | [a, b] =>
    let u := order.unit a b
    if isLow u then .error (.octets order.name [a, b] place (place+2) .illegalEncoding)
    else if !isHigh u then .ok (Char.ofNat u :: done, [])
    else if final then .error (.octets order.name [a, b] place (place+2) .unexpectedEnd)
    else .ok (done, [a, b])
  | [a, b, c] =>
    let u := order.unit a b
    if isLow u then .error (.octets order.name [a, b] place (place+2) .illegalEncoding)
    else if !isHigh u then decodeFrom order final (place+2) (Char.ofNat u :: done) [c]
    else if final then .error (.octets order.name [a, b, c] place (place+3) .unexpectedEnd)
    else .ok (done, [a, b, c])
  | a :: b :: c :: d :: rest =>
    let u := order.unit a b
    if isLow u then .error (.octets order.name [a, b] place (place+2) .illegalEncoding)
    else if !isHigh u then decodeFrom order final (place+2) (Char.ofNat u :: done) (c :: d :: rest)
    else
      let v := order.unit c d
      if isLow v then decodeFrom order final (place+4) (join u v :: done) rest
      else .error (.octets order.name [a, b] place (place+2) .illegalSurrogate)

def decode (order : Order) (final : Bool) (place : Nat) (block : List UInt8) :
    Except Fault (List Char × List UInt8) := do
  let (done, rest) ← decodeFrom order final place [] block
  return (done.reverse, rest)

def littleMark : List UInt8 := [0xff, 0xfe]
def bigMark : List UInt8 := [0xfe, 0xff]

def encodeChar (c : Char) : List UInt8 :=
  let n := c.toNat
  let unit (u : Nat) : List UInt8 := [u.toUInt8, (u/256).toUInt8]
  if n < 0x10000 then unit n
  else unit (0xd800 + (n-0x10000)/1024) ++ unit (0xdc00 + (n-0x10000)%1024)

def encode (text : List Char) : List UInt8 := text.flatMap encodeChar

end SeedSearch.Encoding.Utf16
