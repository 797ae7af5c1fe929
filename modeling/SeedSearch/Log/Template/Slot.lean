import SeedSearch.Decimal.Double
import SeedSearch.Log.Value.Spelling

namespace SeedSearch.Log.Template
open Decimal

inductive Fault where
  | tooFew
  | tooMany
  | notANumber (letter : Char) (value : Value)
  | notAnInteger (letter : Char) (value : Value)
  | notReal (value : Value)
  | notFinite (isNaN : Bool)
  | tooLarge
  | notACharacter
  | noSuchCharacter
  | notAMeasure
  | tooWide
  | tooPrecise
  | measureTooWide
  | measureTooPrecise
  | tooManyDigits
  | outOfMemory
  | noTable
  | noEntry (key : String)
  | noNames (value : Value)
  | unsupported (letter : Char) (place : Nat)
  | incomplete
  | incompleteKey

def Fault.message : Fault → String
  | tooFew => "not enough arguments for format string"
  | tooMany => "not all arguments converted during string formatting"
  | notANumber letter v => s!"%{letter} format: a real number is required, not {v.sort}"
  | notAnInteger letter v => s!"%{letter} format: an integer is required, not {v.sort}"
  | notReal v => "must be real number, not " ++ v.sort
  | notFinite true => "cannot convert float NaN to integer"
  | notFinite false => "cannot convert float infinity to integer"
  | tooLarge => "int too large to convert to float"
  | notACharacter => "%c requires int or char"
  | noSuchCharacter => "%c arg not in range(0x110000)"
  | notAMeasure => "* wants int"
  | tooWide => "width too big"
  | tooPrecise => "precision too big"
  | measureTooWide => "Python int too large to convert to C ssize_t"
  | measureTooPrecise => "Python int too large to convert to C int"
  | tooManyDigits => "precision too large"
  | outOfMemory => ""
  | noTable => "format requires a mapping"
  | noEntry key => Text.Quoted.quote key
  | noNames v =>
    let sort := match v with
      | .octets _ => "byte"
      | v => v.sort
    sort ++ " indices must be integers or slices, not str"
  | unsupported letter place =>
    let shown := if 31 ≤ letter.toNat && letter.toNat ≤ 126 then letter else '?'
    let code := String.ofList (Nat.toDigits 16 letter.toNat)
    s!"unsupported format character '{shown}' (0x{code}) at index {place}"
  | incomplete => "incomplete format"
  | incompleteKey => "incomplete format key"

structure Slot where
  left : Bool := false
  plus : Bool := false
  space : Bool := false
  marked : Bool := false
  zeros : Bool := false
  width : Nat := 0
  precision : Option Nat := none
  deriving DecidableEq, Repr

namespace Slot

-- Far more than is shown of a message; what stands behind so many blanks or
-- zeros is out of sight.
def horizon : Nat := 1000000

private def copies (n : Nat) (a : α) : List α := List.replicate (min n horizon) a
private def blanks (n : Nat) : List Char := copies n ' '
private def zerosOf (n : Nat) : List Char := copies n '0'

private def filled (s : Slot) (blank : α) (body : List α) : List α :=
  let gap := copies (s.width - body.length) blank
  if s.left then body ++ gap else gap ++ body

private def number (s : Slot) (negative : Bool) (mark body : List Char) : List Char :=
  let sign := if negative then ['-'] else if s.plus then ['+'] else if s.space then [' '] else []
  let head := sign ++ mark
  let gap := s.width - (head.length + body.length)
  if s.left then head ++ body ++ blanks gap
  else if s.zeros then head ++ zerosOf gap ++ body
  else blanks gap ++ head ++ body

private def integer (s : Slot) (letter : Char) (n : Int) : List Char :=
  let (base, mark) := match letter with
    | 'o' => (8, ['0', 'o'])
    | 'x' => (16, ['0', 'x'])
    | 'X' => (16, ['0', 'X'])
    | _ => (10, [])
  let digits := Nat.toDigits base n.natAbs
  let digits := if letter = 'X' then digits.map Char.toUpper else digits
  let digits := zerosOf (s.precision.getD 0 - digits.length) ++ digits
  s.number (n < 0) (if s.marked then mark else []) digits

private def decimalInteger (letter : Char) : Value → Except Fault Int
  | .int n => .ok n
  | .flag b => .ok (if b then 1 else 0)
  | .real x => (Double.ofFloat x).whole?.elim (.error (.notFinite x.isNaN)) .ok
  | v => .error (.notANumber letter v)

private def codedInteger (letter : Char) : Value → Except Fault Int
  | .int n => .ok n
  | .flag b => .ok (if b then 1 else 0)
  | v => .error (.notAnInteger letter v)

private def double : Value → Except Fault Double
  | .int n => (Double.ofInt? n).elim (.error .tooLarge) .ok
  | .flag b => (Double.ofInt? (if b then 1 else 0)).elim (.error .tooLarge) .ok
  | .real x => .ok (Double.ofFloat x)
  | v => .error (.notReal v)

private def pointed (marked : Bool) (behind : Nat) (digits : List Char) : List Char :=
  let digits := zerosOf (behind + 1 - digits.length) ++ digits
  let split := digits.length - behind
  digits.take split ++ (if behind = 0 && !marked then [] else ['.']) ++ digits.drop split

private def withPower (body : List Char) (power : Int) : List Char :=
  let digits := Nat.toDigits 10 power.natAbs
  body ++ ['e', if power < 0 then '-' else '+'] ++ zerosOf (2 - digits.length) ++ digits

private def dropZeros (body : List Char) : List Char :=
  if body.contains '.' then ((body.reverse.dropWhile (· = '0')).dropWhile (· = '.')).reverse else body

-- No double has more digits than these behind the point, and none more behind
-- the first one.
private def lastPlace : Nat := 1100

private def finite (marked : Bool) (letter : Char) (precision : Nat) (b : Option Binary) : List Char :=
  let places := min precision lastPlace
  let beyond := zerosOf (precision - places)
  let leading (behind : Nat) : Nat × Int := b.elim (0, 0) (·.leading behind)
  match letter with
  | 'f' => pointed marked places (Nat.toDigits 10 (b.elim 0 (·.inUnits (-places)))) ++ beyond
  | 'e' =>
    let (n, power) := leading places
    withPower (pointed marked places (Nat.toDigits 10 n) ++ beyond) power
  | _ =>
    let behind := places - 1
    let (n, power) := leading behind
    let digits := Nat.toDigits 10 n
    let strip (body : List Char) : List Char := if marked then body ++ beyond else dropZeros body
    if -4 ≤ power && power ≤ behind then strip (pointed marked (behind - power).toNat digits)
    else withPower (strip (pointed marked behind digits)) power

private def real (s : Slot) (letter : Char) (d : Double) : List Char :=
  let laidOut := finite s.marked letter.toLower (s.precision.getD 6)
  let body := match d.size with
    | .zero => laidOut none
    | .finite b => laidOut (some b)
    | .infinite => ['i', 'n', 'f']
    | .undefined => ['n', 'a', 'n']
  let body := if letter.isUpper then body.map Char.toUpper else body
  s.number (d.negative && d.size ≠ .undefined) [] body

-- Half of a surrogate pair has a code but is no character.
private def character : Value → Except Fault (Option Char)
  | .text t =>
    match t.toList with
    | [c] => .ok (some c)
    | _ => .error .notACharacter
  | .int n =>
    if 0 ≤ n && n < 0x110000 then
      .ok (if 0xd800 ≤ n && n < 0xe000 then none else some (Char.ofNat n.toNat))
    else .error .noSuchCharacter
  | .flag b => .ok (some (Char.ofNat (if b then 1 else 0)))
  | _ => .error .notACharacter

private def ascii (chars : List Char) : List Char :=
  chars.flatMap fun c => if c.toNat < 0x80 then [c] else Text.Quoted.escape c

private def cut (s : Slot) (chars : List Char) : List Char :=
  s.filled ' ' (s.precision.elim chars chars.take)

private def integer? (s : Slot) (letter : Char) (n : Int) : Except Fault (List Char) :=
  if 0x7ffffffc < s.precision.getD 0 then .error .tooManyDigits else .ok (s.integer letter n)

private def chars (s : Slot) (letter : Char) (index : Nat) (v : Value) : Except Fault (List Char) :=
  match letter with
  | 's' => .ok (s.cut v.shown.toList)
  | 'r' => .ok (s.cut v.inner.toList)
  | 'a' => .ok (s.cut (ascii v.inner.toList))
  | 'd' | 'i' | 'u' => do s.integer? letter (← decimalInteger letter v)
  | 'o' | 'x' | 'X' => do s.integer? letter (← codedInteger letter v)
  | 'e' | 'E' | 'f' | 'F' | 'g' | 'G' => do return s.real letter (← double v)
  | letter => .error (.unsupported letter index)

def memory : Nat := 0x200000000

def place (s : Slot) (letter : Char) (index : Nat) (v : Value) : Except Fault (List (Option Char)) := do
  let written ←
    if letter = 'c' then s.filled (some ' ') <$> List.singleton <$> character v
    else (·.map some) <$> s.chars letter index v
  if memory < s.width then .error .outOfMemory else return written

end Slot

end SeedSearch.Log.Template
