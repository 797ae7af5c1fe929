import SeedSearch.Decimal.Double
import SeedSearch.Log.Value
import SeedSearch.Log.Value.Table

namespace SeedSearch.Log.Value
open Decimal

private inductive Rank where
  | lowest
  | among (n : Fraction)
  | highest

private def Rank.le : Rank → Rank → Bool
  | lowest, _ => true
  | _, highest => true
  | among a, among b => a.le b
  | _, _ => false

private def rank? : Value → Option Rank
  | flag b => some (.among ⟨if b then 1 else 0, 0⟩)
  | int n => some (.among ⟨n, 0⟩)
  | real x =>
    let d := Double.ofFloat x
    match d.size with
    | .zero => some (.among ⟨0, 0⟩)
    | .finite b =>
      let f := b.fraction
      some (.among (if d.negative then { f with count := -f.count } else f))
    | .infinite => some (if d.negative then .lowest else .highest)
    | .undefined => none
  | _ => none

private def sameNumber (a b : Value) : Bool :=
  match a.rank?, b.rank? with
  | some a, some b => a.le b && b.le a
  | _, _ => false

mutual

def isSame (a b : Value) : Bool :=
  match a, b with
  | null, null => true
  | text a, text b => a = b
  | path a, path b => a = b
  | octets a, octets b => a = b
  | span a, span b => a.toNat = b.toNat
  | set _ a, set _ b => a.length = b.length && areAmong a b
  | a, b => sameNumber a b

def areAmong (items others : List Value) : Bool :=
  match items with
  | [] => true
  | v :: rest => others.any (fun w => isSame v w) && areAmong rest others

end

private def dedupFrom (seen : List Value) : List Value → List Value
  | [] => seen.reverse
  | v :: rest => if seen.any (isSame v) then dedupFrom seen rest else dedupFrom (v :: seen) rest

private def octetsLe : List UInt8 → List UInt8 → Bool
  | [], _ => true
  | _ :: _, [] => false
  | a :: as, b :: bs => a < b || (a = b && octetsLe as bs)

private def le? : Value → Value → Option Bool
  | text a, text b => some (a ≤ b)
  | octets a, octets b => some (octetsLe a b)
  | path a, path b => some (a.le b)
  | set _ a, set _ b => if areAmong a b then some true else if areAmong b a then some false else none
  | a, b => match a.rank?, b.rank? with
    | some a, some b => some (a.le b)
    | _, _ => none

private def sorted (items : List Value) : List Value :=
  if items.all fun a => items.all fun b => (le? a b).isSome then
    items.mergeSort fun a b => (le? a b).getD true
  else items

mutual

def settle : Value → Value
  | list items => list (settleItems items)
  | table members => table (settleMembers members)
  | set frozen items => set frozen (sorted (settleItems items))
  | v => v

def settleItems : List Value → List Value
  | [] => []
  | v :: rest => settle v :: settleItems rest

def settleMembers : List (String × Value) → List (String × Value)
  | [] => []
  | (key, v) :: rest => (key, settle v) :: settleMembers rest

end

-- Numbers modulo 2^61 - 1, which 2^61 is one in.
private def modulus : Nat := 0x1fffffffffffffff

private def signed (negative : Bool) (n : Nat) : Nat :=
  if !negative || n = 0 then n
  else 0x10000000000000000 - (if n = 1 then 2 else n)

-- Equal numbers have the same one, doubles and integers alike. Others are not known.
private def number? : Value → Option Nat
  | flag b => some (if b then 1 else 0)
  | int n => some (signed (n < 0) (n.natAbs % modulus))
  | real x =>
    let d := Double.ofFloat x
    match d.size with
    | .zero => some 0
    | .finite b =>
      let power := Nat.pow 2 (b.exponent % 61).toNat
      some (signed d.negative (b.mantissa * power % modulus))
    | .infinite => some (signed d.negative 314159)
    | .undefined => none
  | text "" | octets [] => some 0
  | _ => none

def collect (frozen : Bool) (items : List Value) : Value :=
  let items := dedupFrom [] items
  match items.mapM fun v => v.number?.map (·, v) with
  | some numbered => set frozen (Table.arrange numbered)
  | none => set frozen items

end SeedSearch.Log.Value
