import SeedSearch.Catalog.Malformed
import SeedSearch.Encoding.Fault
import SeedSearch.Text.Numeral

namespace SeedSearch

inductive Refusal where
  | missing | notAFolder | isAFolder | denied
  deriving DecidableEq, Repr

namespace Refusal

def number : Refusal → Nat
  | missing => 2
  | denied => 13
  | notAFolder => 20
  | isAFolder => 21

def reason : Refusal → String
  | missing => "No such file or directory"
  | denied => "Permission denied"
  | notAFolder => "Not a directory"
  | isAFolder => "Is a directory"

def kind : Refusal → String
  | missing => "FileNotFoundError"
  | denied => "PermissionError"
  | notAFolder => "NotADirectoryError"
  | isAFolder => "IsADirectoryError"

def message (r : Refusal) (path : Path) : String :=
  s!"[Errno {r.number}] {r.reason}: " ++ Text.Quoted.quote path.text

end Refusal

inductive Fault where
  | format (e : Catalog.FormatError)
  | access (r : Refusal) (path : Path)
  | decoding (e : Encoding.Fault)
  | tooLong (e : Text.Numeral.TooLong)
  deriving DecidableEq, Repr

namespace Fault

def message : Fault → String
  | format e => e.message
  | access r path => r.message path
  | decoding e => e.message
  | tooLong e => e.message

def kind : Fault → String
  | format _ => "CatalogFormatError"
  | access r _ => r.kind
  | decoding (.octets ..) => "UnicodeDecodeError"
  | decoding .missingMark => "UnicodeError"
  | tooLong _ => "ValueError"

-- Faults of the input are recorded and the search goes on. A numeral past the
-- digit limit is not one of them.
def ofInput : Fault → Bool
  | tooLong _ => false
  | _ => true

def inFile (path : Path) : Fault → Fault
  | format e => format (e.inFile path)
  | f => f

end Fault

structure Feed (α : Type) where
  items : List α
  fault : Option Fault := none
  deriving DecidableEq, Repr

end SeedSearch
