import SeedSearch.Catalog.Reader
import SeedSearch.Folder
import SeedSearch.Report
import SeedSearch.Scan

namespace SeedSearch
open Catalog (Row)

def Node.rows (tree : Node) (e : Encoding) (path : Path) : Except Refusal (Feed Row) :=
  (tree.read path).map fun content =>
    let (text, fault) := e.decode content
    Catalog.readRows (Catalog.linesOf true text (fault.map .decoding))

def Query.scanFile (q : Query) (path : Path) : Except Refusal (Feed Row) → Scan.Result
  | .error r => ⟨q, [], .error (.access r path)⟩
  | .ok rows => q.scan rows

structure Search where
  query : Query
  visited : Nat := 0
  errors : List FileError := []
  notes : List Note := []
  deriving DecidableEq, Repr

namespace Search

def remark (s : Search) (notes : List Note) : Search := { s with notes := s.notes ++ notes }

def fail (s : Search) (path : Path) (f : Fault) : Search :=
  { s with
    errors := s.errors ++ [⟨path, f.kind, f.message⟩]
    notes := s.notes ++ [.failed path f.message] }

-- Scans files in order until the target is met. A fault of the input ends its
-- file, and the search only if asked to; any other fault ends the search.
def run (read : Path → Except Refusal (Feed Row)) (stopOnError : Bool) (s : Search) : List Path → Search × Option Fault
  | [] => (s, none)
  | path :: rest =>
    if s.query.isComplete then (s, none)
    else
      let result := s.query.scanFile path (read path)
      let s := { s.remark (.searching path :: result.notes) with
        query := result.query, visited := s.visited + 1 }
      match result.committed with
      | .ok n => run read stopOnError (s.remark [.committed n path]) rest
      | .error f =>
        let f := f.inFile path
        if !f.ofInput then (s, some f)
        else if stopOnError then (s.fail path f, some f)
        else run read stopOnError (s.fail path f) rest

def report (s : Search) : Report where
  target := s.query.target
  found := s.query.results
  successes := s.query.successes
  filesScanned := s.visited
  errors := s.errors

end Search

end SeedSearch
