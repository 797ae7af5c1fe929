import SeedSearch.Encoding
import SeedSearch.Query

namespace SeedSearch

structure FileError where
  path : Path
  kind : String
  message : String
  deriving DecidableEq, Repr

def FileError.json (e : FileError) : Json :=
  .table [("path", .text e.path.text), ("error_type", .text e.kind), ("message", .text e.message)]

structure Report where
  target : Int
  found : List Match := []
  successes : Int := 0
  filesScanned : Int := 0
  errors : List FileError := []
  deriving DecidableEq, Repr

namespace Report

def satisfied (r : Report) : Bool := r.target ≤ r.successes

def seedsFrom (last : Option Int) : List Match → List Int
  | [] => []
  | m :: rest =>
    if last = some m.seed then seedsFrom last rest else m.seed :: seedsFrom (some m.seed) rest

def seeds (r : Report) : List Int := seedsFrom none r.found

def json (r : Report) : Json :=
  .table
    [("target", .int r.target), ("successes", .int r.successes), ("satisfied", .bool r.satisfied),
     ("files_scanned", .int r.filesScanned), ("seeds", .list (r.seeds.map .int)),
     ("matches", .list (r.found.map Match.json)), ("errors", .list (r.errors.map FileError.json))]

inductive Line where
  | seed (seed : Int)
  | depth (depth : Int)
  | object (text : String)
  deriving DecidableEq, Repr

def Line.text : Line → String
  | seed n => s!"Seed {n}"
  | depth n => s!"    Depth {n}"
  | object text => "        " ++ text

-- Matches grouped by seed and then by depth. The lowest verbosity lists seeds,
-- the next one depths, the highest the matches themselves.
def groupFrom (verbosity : Int) (seed depth : Option Int) : List Match → List Line
  | [] => []
  | m :: rest =>
    let newSeed := seed ≠ some m.seed
    let depth := if newSeed then none else depth
    let newDepth := 1 < verbosity && depth ≠ some m.depth
    (if newSeed then [.seed m.seed] else []) ++
      (if newDepth then [.depth m.depth] else []) ++
      (if 2 < verbosity then [.object m.text] else []) ++
      groupFrom verbosity (some m.seed) (if newDepth then some m.depth else depth) rest

def group (verbosity : Int) (found : List Match) : List Line := groupFrom verbosity none none found

def Line.isSeed : Line → Bool
  | seed _ => true
  | _ => false

def matchLines (verbosity : Int) (found : List Match) : List String :=
  let lines := group verbosity found
  (if found.isEmpty then [] else ["Matches:", ""]) ++ lines.map Line.text ++
    ["", s!"...{(lines.filter Line.isSeed).length} matches found."]

def matchText (verbosity : Int) (found : List Match) : String :=
  "\n".intercalate (matchLines verbosity found)

def errorText (errors : List FileError) : String :=
  "\n".intercalate (errors.map fun e => s!"error: {e.path.text}: {e.message}")

def title : String := "=====  BROGUE SEED SCANNER  ====="

def searchText (l : Limits) (criteria : List Criterion) (e : Encoding) (verbosity : Int) : String :=
  "\n".intercalate
    (["Search:",
      s!" verbosity: {verbosity}",
      s!"    format: {e.label}",
      s!"     depth: {l.depthMin} to {l.depthMax}",
      s!"      seed: {l.seedMin} to {l.seedMax}",
      s!"   matches: {l.matchesMax}",
      "Objects:"] ++ criteria.map fun c => "    " ++ c.describe)

end Report

end SeedSearch
