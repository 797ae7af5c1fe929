import SeedSearch.Decimal.Layout
import SeedSearch.Encoding.Utf8
import SeedSearch.Json
import SeedSearch.Log.Value

namespace SeedSearch.Log.Value

def layout : Decimal.Layout where
  smallest := -4
  exponent n :=
    let digits := toString n.natAbs
    (if n < 0 then "-" else "+") ++ (if digits.length < 2 then "0" else "") ++ digits

private def realText (x : Float) : String :=
  layout.number (fun d =>
    if d.size = .undefined then "nan" else if d.negative then "-inf" else "inf") x

-- Octets are shown like text, each of those beyond ASCII by number.
private def octetText (octets : List UInt8) : String :=
  let chars := octets.map fun o => Char.ofNat o.toNat
  let mark := Text.Quoted.mark chars
  let spell (c : Char) : List Char :=
    if c.toNat < 0x7f then Text.Quoted.spell mark c else Text.Quoted.escape c
  String.ofList ('b' :: mark :: chars.flatMap spell ++ [mark])

private def setText (frozen : Bool) (items : List String) : String :=
  let braced := if items.isEmpty then "" else "\x7b" ++ ", ".intercalate items ++ "\x7d"
  if frozen then "frozenset(" ++ braced ++ ")" else if items.isEmpty then "set()" else braced

mutual

def inner : Value → String
  | null => "None"
  | flag b => if b then "True" else "False"
  | int n => toString n
  | real x => realText x
  | text s => Text.Quoted.quote s
  | list items => "[" ++ ", ".intercalate (innerItems items) ++ "]"
  | table members => "\x7b" ++ ", ".intercalate (innerMembers members) ++ "\x7d"
  | set frozen items => setText frozen (innerItems items)
  | path p => "PosixPath(" ++ Text.Quoted.quote p.text ++ ")"
  | octets o => octetText o
  | failure message => "ValueError(" ++ Text.Quoted.quote message ++ ")"
  | span n => s!"range(0, {n})"

def innerItems : List Value → List String
  | [] => []
  | v :: rest => inner v :: innerItems rest

def innerMembers : List (String × Value) → List String
  | [] => []
  | (key, v) :: rest => (Text.Quoted.quote key ++ ": " ++ inner v) :: innerMembers rest

end

def shown : Value → String
  | text s => s
  | path p => p.text
  | failure message => message
  | v => inner v

mutual

def json : Value → Json
  | null => .null
  | flag b => .bool b
  | int n => .int n
  | real x => .real x
  | text s => .text s
  | list items => .list (jsonItems items)
  | table members => .table (jsonMembers members)
  | set _ items => .list (jsonItems items)
  | path p => .text p.text
  | octets o => .text (Encoding.Utf8.lossy o)
  | failure message => .text message
  | span n => .text (inner (span n))

def jsonItems : List Value → List Json
  | [] => []
  | v :: rest => json v :: jsonItems rest

def jsonMembers : List (String × Value) → List (String × Json)
  | [] => []
  | (key, v) :: rest => (key, json v) :: jsonMembers rest

end

end SeedSearch.Log.Value
