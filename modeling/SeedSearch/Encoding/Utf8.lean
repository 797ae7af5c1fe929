import SeedSearch.Encoding.Fault

namespace SeedSearch.Encoding.Utf8

-- A character of which some octets have been read: the octets so far, the
-- bits they carry, how many are missing and where the next one may lie.
structure Open where
  seen : List UInt8
  bits : Nat
  missing : Nat
  low : Nat := 0x80
  high : Nat := 0xbf
  deriving DecidableEq, Repr

-- The narrowed ranges keep out overlong forms, surrogates and all past U+10FFFF.
def lead? (b : UInt8) : Option Open :=
  let n := b.toNat
  if 0xc2 ≤ n && n ≤ 0xdf then some { seen := [b], bits := n-0xc0, missing := 1 }
  else if n = 0xe0 then some { seen := [b], bits := 0, missing := 2, low := 0xa0 }
  else if n = 0xed then some { seen := [b], bits := 13, missing := 2, high := 0x9f }
  else if 0xe1 ≤ n && n ≤ 0xef then some { seen := [b], bits := n-0xe0, missing := 2 }
  else if n = 0xf0 then some { seen := [b], bits := 0, missing := 3, low := 0x90 }
  else if n = 0xf4 then some { seen := [b], bits := 4, missing := 3, high := 0x8f }
  else if 0xf1 ≤ n && n ≤ 0xf3 then some { seen := [b], bits := n-0xf0, missing := 3 }
  else none

inductive Heard where
  | char (c : Char)
  | more (o : Open)
  | badStart
  | badContinuation
  deriving DecidableEq, Repr

def hear : Option Open → UInt8 → Heard
  | none, b =>
    if b < 0x80 then .char (Char.ofNat b.toNat)
    else match lead? b with
      | some o => .more o
      | none => .badStart
  | some o, b =>
    if o.low ≤ b.toNat && b.toNat ≤ o.high then
      let bits := o.bits * 64 + b.toNat % 64
      if o.missing ≤ 1 then .char (Char.ofNat bits)
      else .more { seen := o.seen ++ [b], bits, missing := o.missing-1 }
    else .badContinuation

private def seen (o : Option Open) : List UInt8 := (o.map (·.seen)).getD []

-- The first two octets of a surrogate at the end of a block are held back with
-- it, like the beginning of a character.
private def holdsBack (o : Option Open) (b : UInt8) (rest : List UInt8) : Bool :=
  rest.isEmpty && seen o == [0xed] && 0xa0 ≤ b && b ≤ 0xbf

def decodeFrom (final : Bool) (place : Nat) (o : Option Open) (done : List Char) :
    List UInt8 → Except Fault (List Char × List UInt8)
  | [] =>
    if final && o.isSome then
      .error (.octets "utf-8" (seen o) (place - (seen o).length) place .unexpectedEnd)
    else .ok (done, seen o)
  | b :: rest =>
    match hear o b with
    | .char c => decodeFrom final (place+1) none (c :: done) rest
    | .more o => decodeFrom final (place+1) (some o) done rest
    | .badStart => .error (.octets "utf-8" [b] place (place+1) .invalidStart)
    | .badContinuation =>
      if !final && holdsBack o b rest then .ok (done, seen o ++ [b])
      else .error (.octets "utf-8" (seen o) (place - (seen o).length) place .invalidContinuation)

section Steps

variable {final : Bool} {place : Nat} {o : Option Open} {next : Open} {done : List Char} {b : UInt8}
  {rest : List UInt8} {c : Char}

theorem decodeFrom_char (heard : hear o b = .char c) :
    decodeFrom final place o done (b :: rest) = decodeFrom final (place+1) none (c :: done) rest := by
  rw [decodeFrom, heard]

theorem decodeFrom_more (heard : hear o b = .more next) :
    decodeFrom final place o done (b :: rest) = decodeFrom final (place+1) (some next) done rest := by
  rw [decodeFrom, heard]

theorem decodeFrom_nil : decodeFrom final place none done [] = .ok (done, []) := by
  simp [decodeFrom, seen]

theorem decodeFrom_pause : decodeFrom false place o done [] = .ok (done, (o.map (·.seen)).getD []) := rfl

theorem seen_of_lead (led : lead? b = some next) : next.seen = [b] := by
  simp only [lead?] at led
  repeat' split at led
  all_goals cases led <;> rfl

theorem seen_of_more (heard : hear o b = .more next) : next.seen = (o.map (·.seen)).getD [] ++ [b] := by
  cases o with
  | none =>
    simp only [hear] at heard
    split at heard
    · cases heard
    · split at heard
      next led =>
        cases heard
        exact seen_of_lead led
      next => cases heard
  | some o =>
    simp only [hear] at heard
    repeat' split at heard
    all_goals cases heard <;> rfl

end Steps

def decode (final : Bool) (block : List UInt8) : Except Fault (List Char × List UInt8) := do
  let (done, rest) ← decodeFrom final 0 none [] block
  return (done.reverse, rest)

def lossyFrom (o : Option Open) (done : List Char) : List UInt8 → List Char
  | [] => (if o.isSome then '\ufffd' :: done else done).reverse
  | b :: rest =>
    match hear o b with
    | .char c => lossyFrom none (c :: done) rest
    | .more o => lossyFrom (some o) done rest
    | .badStart => lossyFrom none ('\ufffd' :: done) rest
    | .badContinuation =>
      match hear none b with
      | .char c => lossyFrom none (c :: '\ufffd' :: done) rest
      | .more o => lossyFrom (some o) ('\ufffd' :: done) rest
      | _ => lossyFrom none ('\ufffd' :: '\ufffd' :: done) rest

def lossy (octets : List UInt8) : String := String.ofList (lossyFrom none [] octets)

def mark : List UInt8 := [0xef, 0xbb, 0xbf]

def encodeChar (c : Char) : List UInt8 :=
  let n := c.toNat
  if n < 0x80 then [n.toUInt8]
  else if n < 0x800 then [(0xc0 + n/64).toUInt8, (0x80 + n%64).toUInt8]
  else if n < 0x10000 then
    [(0xe0 + n/4096).toUInt8, (0x80 + n/64%64).toUInt8, (0x80 + n%64).toUInt8]
  else
    [(0xf0 + n/262144).toUInt8, (0x80 + n/4096%64).toUInt8, (0x80 + n/64%64).toUInt8,
     (0x80 + n%64).toUInt8]

def encode (text : List Char) : List UInt8 := text.flatMap encodeChar

end SeedSearch.Encoding.Utf8
