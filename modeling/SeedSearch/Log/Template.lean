import SeedSearch.Log.Template.Slot
import SeedSearch.Text.Digits

namespace SeedSearch.Log.Template

-- The values for a message: those still to be used in order, and the one in
-- which others are found by name. With such a one, values may be left over.
structure Supply where
  pending : List Value
  named : Option Value := none

namespace Supply

def ofList : List Value → Supply
  | [.table (m :: ms)] => { pending := [.table (m :: ms)], named := some (.table (m :: ms)) }
  | values => { pending := values }

def ofValue (v : Value) : Supply :=
  if !v.isGiven then { pending := [] }
  else match v with
    | .table _ | .list _ | .octets _ | .span _ => { pending := [v], named := some v }
    | _ => { pending := [v] }

private def next (s : Supply) : Except Fault (Value × Supply) :=
  match s.pending with
  | [] => .error .tooFew
  | v :: rest => .ok (v, { s with pending := rest })

private def select (s : Supply) (key : String) : Except Fault Supply :=
  match s.named with
  | none => .error .noTable
  | some (.table members) =>
    match members.lookup key with
    | none => .error (.noEntry key)
    | some v => .ok { s with pending := [v] }
  | some v => .error (.noNames v)

end Supply

private def name (depth : Nat) (done : List Char) : List Char → Except Fault (List Char × List Char)
  | [] => .error .incompleteKey
  | '(' :: rest => name (depth+1) ('(' :: done) rest
  | ')' :: rest => if depth = 0 then .ok (done.reverse, rest) else name (depth-1) (')' :: done) rest
  | c :: rest => name depth (c :: done) rest

private def entry (s : Supply) : List Char → Except Fault (Supply × List Char)
  | '(' :: rest => do
    if s.named.isNone then .error .noTable
    let (key, rest) ← name 0 [] rest
    return (← s.select (String.ofList key), rest)
  | chars => .ok (s, chars)

private def flags (slot : Slot) : List Char → Slot × List Char
  | '-' :: rest => flags { slot with left := true } rest
  | '+' :: rest => flags { slot with plus := true } rest
  | ' ' :: rest => flags { slot with space := true } rest
  | '#' :: rest => flags { slot with marked := true } rest
  | '0' :: rest => flags { slot with zeros := true } rest
  | chars => (slot, chars)

private structure Measure where
  limit : Nat
  tooBig : Fault
  outOfRange : Fault

private def width : Measure := ⟨0x7fffffffffffffff, .tooWide, .measureTooWide⟩
private def precision : Measure := ⟨0x7fffffff, .tooPrecise, .measureTooPrecise⟩

private def Measure.read (m : Measure) (s : Supply) :
    List Char → Except Fault (Option Int × Supply × List Char)
  | '*' :: rest => do
    let (v, s) ← s.next
    let n ← match v with
      | .int n => pure n
      | .flag b => pure (if b then 1 else 0)
      | _ => .error .notAMeasure
    if n < -m.limit - 1 || m.limit < n then .error m.outOfRange
    return (some n, s, rest)
  | chars => do
    let digits := chars.takeWhile Char.isDigit
    let n := Text.positional (digits.map (·.toNat - 48))
    if m.limit < n then .error m.tooBig
    return (if digits.isEmpty then none else some n, s, chars.drop digits.length)

-- The least of all integers has no opposite, and counts as no width.
private def slot (s : Supply) (chars : List Char) : Except Fault (Slot × Supply × List Char) := do
  let (s, chars) ← entry s chars
  let (slot, chars) := flags {} chars
  let (n, s, chars) ← width.read s chars
  let slot := match n with
    | none => slot
    | some n =>
      { slot with width := if width.limit < n.natAbs then 0 else n.natAbs, left := slot.left || n < 0 }
  let (slot, s, chars) ← match chars with
    | '.' :: chars => do
      let (n, s, chars) ← precision.read s chars
      pure ({ slot with precision := some (n.getD 0).toNat }, s, chars)
    | chars => pure (slot, s, chars)
  match chars with
  | 'h' :: chars | 'l' :: chars | 'L' :: chars => return (slot, s, chars)
  | chars => return (slot, s, chars)

private def fillFrom (size : Nat) : Nat → Supply → List Char → Except Fault (List (Option Char))
  | 0, _, _ => .ok []
  | _, s, [] => if s.pending.isEmpty || s.named.isSome then .ok [] else .error .tooMany
  | fuel+1, s, '%' :: '%' :: rest => do return some '%' :: (← fillFrom size fuel s rest)
  | fuel+1, s, '%' :: rest => do
    match ← slot s rest with
    | (_, _, []) => .error .incomplete
    | (slot, s, letter :: rest) =>
      let (v, s) ← s.next
      let written ← slot.place letter (size - (rest.length + 1)) v
      return written ++ (← fillFrom size fuel s rest)
  | fuel+1, s, c :: rest => do return some c :: (← fillFrom size fuel s rest)

-- A message without values is taken as it is, percent signs included.
def fill (template : String) (values : Supply) : Except Fault (List (Option Char)) :=
  let chars := template.toList
  if values.pending.isEmpty then .ok (chars.map some)
  else fillFrom chars.length (chars.length+1) values chars

end SeedSearch.Log.Template
