import SeedSearch.Problems

namespace SeedSearch

structure Limits where
  seedMin : Int := 1
  seedMax : Int := 0xffffffff
  depthMin : Int := 1
  depthMax : Int := 26
  matchesMax : Int := 10
  deriving DecidableEq, Repr

namespace Limits

def hasSeed (l : Limits) (seed : Int) : Bool := l.seedMin ≤ seed && seed ≤ l.seedMax
def hasDepth (l : Limits) (depth : Int) : Bool := l.depthMin ≤ depth && depth ≤ l.depthMax

structure Given where
  seedMin : Option Int := none
  seedMax : Option Int := none
  depthMin : Option Int := none
  depthMax : Option Int := none
  matchesMax : Option Int := none
  deriving DecidableEq, Repr

inductive Field where
  | seedMin | seedMax | depthMin | depthMax | matchesMax
  deriving DecidableEq, Repr

namespace Field

def all : List Field := [seedMin, seedMax, depthMin, depthMax, matchesMax]

def name : Field → String
  | seedMin => "seed_min"
  | seedMax => "seed_max"
  | depthMin => "depth_min"
  | depthMax => "depth_max"
  | matchesMax => "matches_max"

def low (_ : Field) : Int := 1

def high : Field → Int
  | seedMin | seedMax => 0xffffffff
  | depthMin | depthMax => 26
  | matchesMax => 255

def of (g : Given) : Field → Option Int
  | seedMin => g.seedMin
  | seedMax => g.seedMax
  | depthMin => g.depthMin
  | depthMax => g.depthMax
  | matchesMax => g.matchesMax

end Field

inductive OutOfRange where
  | below (low : Int)
  | above (high : Int)
  deriving DecidableEq, Repr

def OutOfRange.message : OutOfRange → String
  | below low => s!"Input should be greater than or equal to {low}"
  | above high => s!"Input should be less than or equal to {high}"

def check (low high n : Int) : Option OutOfRange :=
  if n < low then some (.below low) else if high < n then some (.above high) else none

-- Inverted ranges are one problem together, and are only looked for between
-- fields that are all in range.
inductive Problem where
  | field (f : Field) (why : OutOfRange)
  | inverted (ranges : List (String × Int × Int))
  deriving DecidableEq, Repr

def Problem.message : Problem → String
  | field f why => f.name ++ ": " ++ why.message
  | inverted ranges =>
    "; ".intercalate (ranges.map fun (what, low, high) => s!"{what} range is inverted: {low} > {high}")

def fieldProblems (g : Given) : List Problem :=
  Field.all.filterMap fun f =>
    (f.of g).bind fun n => (check f.low f.high n).map (.field f)

def fill (g : Given) : Limits where
  seedMin := g.seedMin.getD 1
  seedMax := g.seedMax.getD 0xffffffff
  depthMin := g.depthMin.getD 1
  depthMax := g.depthMax.getD 26
  matchesMax := g.matchesMax.getD 10

def inversions (l : Limits) : List (String × Int × Int) :=
  (if l.seedMax < l.seedMin then [("seed", l.seedMin, l.seedMax)] else []) ++
    (if l.depthMax < l.depthMin then [("depth", l.depthMin, l.depthMax)] else [])

def build (g : Given) : Except (List Problem) Limits :=
  match fieldProblems g with
  | [] =>
    let limits := fill g
    match limits.inversions with
    | [] => .ok limits
    | ranges => .error [.inverted ranges]
  | problems => .error problems

def render (problems : List Problem) : String :=
  Problems.render Problems.configuration (problems.map Problem.message)

end Limits

end SeedSearch
