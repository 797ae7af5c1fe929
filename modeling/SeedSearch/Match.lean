import SeedSearch.Criterion
import SeedSearch.Object

namespace SeedSearch

structure Match where
  seed : Int
  depth : Int
  object : Object
  outcome : Outcome
  vault : Option Int := none
  carriedBy : Option String := none
  deriving DecidableEq, Repr

namespace Match

def text (m : Match) : String :=
  match m.carriedBy, m.vault with
  | some carrier, _ => s!"{m.object.text} ({carrier})"
  | none, some vault => s!"{m.object.text} (vault {vault})"
  | none, none => m.object.text

def json (m : Match) : Json :=
  .table
    [("seed", .int m.seed), ("depth", .int m.depth), ("object", m.object.json),
     ("vault", .opt .int m.vault), ("carried_by", .opt .text m.carriedBy),
     ("outcome", .text m.outcome.name)]

end Match

end SeedSearch
