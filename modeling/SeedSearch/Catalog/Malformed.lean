import SeedSearch.Catalog.Record
import SeedSearch.Category
import SeedSearch.Path

namespace SeedSearch.Catalog

structure NumberColumn where
  name : String
  low : Int
  high : Int
  deriving DecidableEq, Repr

inductive Malformed where
  | empty
  | headerFault (f : Record.Fault)
  | headerFields (found : Nat)
  | headerNames
  | recordFault (f : Record.Fault)
  | fields (found : Nat)
  | category (raw : String)
  | notInteger (column : NumberColumn) (raw : String)
  | outOfRange (column : NumberColumn) (number : Int)
  | unknownKind (category : Category) (raw : String)
  | unknownRunic (category : Category) (raw : String)
  | unknownMutation (raw : String)
  | unknownStatus (raw : String)
  | noEnchantment (category : Category)
  deriving DecidableEq, Repr

namespace Malformed
open Text.Quoted

def message : Malformed → String
  | empty => "catalog is empty"
  | headerFault f => "unreadable header: " ++ f.message
  | headerFields found => s!"expected 13 header fields, found {found}"
  | headerNames => "header is not a seed catalog header"
  | recordFault f => "malformed record: " ++ f.message
  | fields found => s!"expected 13 fields, found {found}"
  | category raw => "unknown category: " ++ quote raw
  | notInteger column raw => column.name ++ " is not an integer: " ++ quote raw
  | outOfRange column number =>
    s!"{column.name} out of range [{column.low}, {column.high}]: {number}"
  | unknownKind c raw => s!"unknown {c.name} kind: " ++ quote raw
  | unknownRunic c raw => s!"unknown {c.name} runic: " ++ quote raw
  | unknownMutation raw => "unknown mutation: " ++ quote raw
  | unknownStatus raw => "unknown ally status: " ++ quote raw
  | noEnchantment c => c.name ++ " row without enchantment"

end Malformed

structure Place where
  path : Option Path := none
  line : Option Int := none
  deriving DecidableEq, Repr

def Place.label (p : Place) : String :=
  match p.path, p.line with
  | none, none => ""
  | some path, none => path.text
  | none, some line => s!"line {line}"
  | some path, some line => s!"{path.text}:{line}"

def Place.mark (p : Place) (reason : String) : String :=
  if p.label = "" then reason else p.label ++ ": " ++ reason

structure FormatError where
  reason : Malformed
  place : Place := {}
  deriving DecidableEq, Repr

namespace FormatError

def message (e : FormatError) : String := e.place.mark e.reason.message

def inFile (e : FormatError) (path : Path) : FormatError :=
  { e with place := { e.place with path := some (e.place.path.getD path) } }

end FormatError

end SeedSearch.Catalog
