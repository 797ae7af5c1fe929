import SeedSearch.Path

namespace SeedSearch.Log

inductive Value where
  | null
  | flag (value : Bool)
  | int (value : Int)
  | real (value : Float)
  | text (value : String)
  | list (items : List Value)
  | table (members : List (String × Value))
  | set (frozen : Bool) (items : List Value)
  | path (value : Path)
  | octets (value : List UInt8)
  | failure (message : String)
  | span (bound : Int)

namespace Value

def isGiven : Value → Bool
  | null => false
  | flag b => b
  | int n => n ≠ 0
  | real x => x != 0
  | text s => s ≠ ""
  | list items => !items.isEmpty
  | table members => !members.isEmpty
  | set _ items => !items.isEmpty
  | octets o => !o.isEmpty
  | span n => 0 < n
  | path _ | failure _ => true

def sort : Value → String
  | null => "NoneType"
  | flag _ => "bool"
  | int _ => "int"
  | real _ => "float"
  | text _ => "str"
  | list _ => "list"
  | table _ => "dict"
  | set frozen _ => if frozen then "frozenset" else "set"
  | path _ => "PosixPath"
  | octets _ => "bytes"
  | failure _ => "ValueError"
  | span _ => "range"

end Value

end SeedSearch.Log
