import SeedSearch.Decimal.Layout
import SeedSearch.Text.Quoted

namespace SeedSearch

-- Members keep the order in which they were put in.
inductive Json where
  | null
  | bool (value : Bool)
  | int (value : Int)
  | real (value : Float)
  | text (value : String)
  -- text with half of a surrogate pair in it
  | torn
  | list (items : List Json)
  | table (members : List (String × Json))

namespace Json

def spell (c : Char) : List Char :=
  match c with
  | '"' => ['\\', '"']
  | '\\' => ['\\', '\\']
  | '\n' => ['\\', 'n']
  | '\r' => ['\\', 'r']
  | '\t' => ['\\', 't']
  | '\x08' => ['\\', 'b']
  | '\x0c' => ['\\', 'f']
  | c => if c.toNat < 0x20 then ['\\', 'u'] ++ Text.Quoted.hex 4 c.toNat else [c]

def quote (s : String) : String := String.ofList ('"' :: s.toList.flatMap spell ++ ['"'])

def layout : Decimal.Layout := ⟨-5, fun n => if n < 0 then toString n else s!"+{n}"⟩

def number (x : Float) : String := layout.number (fun _ => "null") x

mutual

def render : Json → String
  | null => "null"
  | bool b => if b then "true" else "false"
  | int n => toString n
  | real x => number x
  | text s => quote s
  | torn => quote "\ufffd"
  | list items => "[" ++ ",".intercalate (renderItems items) ++ "]"
  | table members => "\x7b" ++ ",".intercalate (renderMembers members) ++ "\x7d"

def renderItems : List Json → List String
  | [] => []
  | j :: rest => render j :: renderItems rest

def renderMembers : List (String × Json) → List String
  | [] => []
  | (key, j) :: rest => (quote key ++ ":" ++ render j) :: renderMembers rest

end

private def block (opening closing indent : String) (lines : List String) : String :=
  if lines.isEmpty then opening ++ closing
  else opening ++ "\n" ++ ",\n".intercalate (lines.map (indent ++ "  " ++ ·)) ++ "\n" ++ indent ++ closing

mutual

def pretty (indent : String) : Json → String
  | list items => block "[" "]" indent (prettyItems (indent ++ "  ") items)
  | table members => block "\x7b" "\x7d" indent (prettyMembers (indent ++ "  ") members)
  | j => render j

def prettyItems (indent : String) : List Json → List String
  | [] => []
  | j :: rest => pretty indent j :: prettyItems indent rest

def prettyMembers (indent : String) : List (String × Json) → List String
  | [] => []
  | (key, j) :: rest => (quote key ++ ": " ++ pretty indent j) :: prettyMembers indent rest

end

inductive Flaw where
  | overflow
  | torn
  | tooDeep
  deriving DecidableEq, Repr

def Flaw.message : Flaw → String
  | overflow => "Integer exceeds 64-bit range"
  | torn => "str is not valid UTF-8: surrogates not allowed"
  | tooDeep => "Recursion limit reached"

mutual

def flawWithin? (levels : Nat) : Json → Option Flaw
  | int n => if -0x8000000000000000 ≤ n && n < 0x10000000000000000 then none else some .overflow
  | torn => some .torn
  | list [] => none
  | list (j :: rest) =>
    if levels = 0 then some .tooDeep else (flawWithin? (levels-1) j).or (flawOfItems? (levels-1) rest)
  | table members => if levels = 0 then some .tooDeep else flawOfMembers? (levels-1) members
  | _ => none

def flawOfItems? (levels : Nat) : List Json → Option Flaw
  | [] => none
  | j :: rest => (flawWithin? levels j).or (flawOfItems? levels rest)

def flawOfMembers? (levels : Nat) : List (String × Json) → Option Flaw
  | [] => none
  | (_, j) :: rest => (flawWithin? levels j).or (flawOfMembers? levels rest)

end

def levelLimit : Nat := 254

def flaw? (j : Json) : Option Flaw := j.flawWithin? levelLimit

private def unlessFlawed (j : Json) (text : String) : Except Flaw String :=
  match j.flaw? with
  | none => .ok text
  | some flaw => .error flaw

def compact? (j : Json) : Except Flaw String := unlessFlawed j j.render

def pretty? (j : Json) : Except Flaw String := unlessFlawed j (j.pretty "")

theorem eq_pretty_of_ok {j : Json} {text : String} (written : j.pretty? = .ok text) : text = j.pretty "" := by
  unfold pretty? unlessFlawed at written
  split at written
  · exact (Except.ok.inj written).symm
  · cases written

def opt (f : α → Json) : Option α → Json
  | none => null
  | some a => f a

end Json

end SeedSearch
