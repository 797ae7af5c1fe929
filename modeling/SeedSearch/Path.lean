namespace SeedSearch

-- A slash-separated path. Empty and dot components carry no meaning and are
-- not kept; what the path starts at is kept as it was written.
structure Path where
  root : String := ""
  parts : List String := []
  deriving DecidableEq, Repr

namespace Path

def split : List Char → List Char → List (List Char)
  | part, [] => [part.reverse]
  | part, c :: rest => if c = '/' then part.reverse :: split [] rest else split (c :: part) rest

-- Exactly two leading slashes are a root of their own.
def rootOf (text : List Char) : String :=
  match text.takeWhile (· = '/') with
  | [] => ""
  | ['/', '/'] => "//"
  | _ => "/"

def ofString (text : String) : Path where
  root := rootOf text.toList
  parts := ((split [] text.toList).filter fun p => !p.isEmpty && p ≠ ['.']).map String.ofList

def text (p : Path) : String :=
  if p.root = "" && p.parts.isEmpty then "." else p.root ++ "/".intercalate p.parts

def way (p : Path) : List String := if p.root = "" then p.parts else p.root :: p.parts

def child (p : Path) (name : String) : Path := { p with parts := p.parts ++ [name] }

private def stepsLe : List String → List String → Bool
  | [], _ => true
  | _ :: _, [] => false
  | a :: as, b :: bs => a < b || (a = b && stepsLe as bs)

def le (p q : Path) : Bool := stepsLe p.way q.way

end Path

end SeedSearch
