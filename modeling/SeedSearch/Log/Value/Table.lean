namespace SeedSearch.Log.Value

-- Places that are free or taken by a member with its number. There are 2^n of
-- them, and more than half stay free, so that a search for a free one ends.
abbrev Table (α : Type) := Array (Option (Nat × α))

namespace Table

private def isFree (t : Table α) (place : Nat) : Bool := (t.getD place none).isNone

-- The first free place. Ten places in a row are tried if there are so many, and
-- else one; then the search goes on elsewhere.
private def seek (t : Table α) (place spread : Nat) : Nat → Nat
  | 0 => place
  | fuel+1 =>
    let run := if place + 9 < t.size then 10 else 1
    match (List.range run).find? fun k => t.isFree (place + k) with
    | some k => place + k
    | none =>
      let spread := spread / 32
      t.seek ((place*5 + 1 + spread) % t.size) spread fuel

private def put (t : Table α) (number : Nat) (a : α) : Table α :=
  t.setIfInBounds (t.seek (number % t.size) number (t.size + 16)) (some (number, a))

private def members (t : Table α) : List (Nat × α) := t.toList.filterMap id

private def free (size : Nat) : Table α := Array.replicate size none

private def add (t : Table α) (number : Nat) (a : α) : Table α :=
  let t := t.put number a
  let used := t.members.length
  if used * 5 < (t.size - 1) * 3 then t
  else
    let least := if 50000 < used then used*2 else used*4
    t.members.foldl (fun t (number, a) => t.put number a) (free (Nat.pow 2 (least.log2 + 1)))

def arrange (items : List (Nat × α)) : List α :=
  (items.foldl (fun t (number, a) => t.add number a) (free 8)).members.map (·.2)

end Table

end SeedSearch.Log.Value
