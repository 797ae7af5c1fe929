import SeedSearch.Text.Blank
import SeedSearch.Text.Digits

namespace SeedSearch.Text.Numeral

-- Longer numerals are not read, leading zeros counted.
def digitLimit : Nat := 4300

structure TooLong where
  digits : Nat
  deriving DecidableEq, Repr

def TooLong.message (e : TooLong) : String :=
  s!"Exceeds the limit ({digitLimit} digits) for integer string conversion: value has {e.digits} digits; " ++
    "use sys.set_int_max_str_digits() to increase the limit"

def natural? (text : List Char) : Except TooLong (Option Nat) :=
  if text.isEmpty || !text.all isPlainDigit then .ok none
  else if digitLimit < text.length then .error ⟨text.length⟩
  else .ok (some (positional (text.map fun c => c.toNat - 48)))

-- Digits of any script; a single low line may stand between two of them.
def digits? : List Char → Option (List Nat)
  | [] => none
  | [c] => (digitValue? c).map ([·])
  | c :: '_' :: rest => do return (← digitValue? c) :: (← digits? rest)
  | c :: rest => do return (← digitValue? c) :: (← digits? rest)

-- The four ASCII separators are white space elsewhere, but do not pad a number.
def pads (c : Char) : Bool := isBlank c && !(0x1c ≤ c.toNat && c.toNat ≤ 0x1f)

def magnitude? (text : List Char) : Option Nat := do
  let digits ← digits? text
  if digitLimit < digits.length then none else some (positional digits)

def integer? (text : String) : Option Int :=
  match trimBy pads text.toList with
  | '-' :: rest => (magnitude? rest).map (-Int.ofNat ·)
  | '+' :: rest => (magnitude? rest).map Int.ofNat
  | rest => (magnitude? rest).map Int.ofNat

end SeedSearch.Text.Numeral
