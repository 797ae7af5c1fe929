import SeedSearch.Criterion.Term
import SeedSearch.Problems

namespace SeedSearch

inductive TermProblem where
  | countRequired (category : Category)
  | empty (category : Category)
  | notATerm (category : Category) (token : String)
  | duplicate (criterion : Criterion)
  deriving DecidableEq, Repr

def TermProblem.message : TermProblem → String
  | countRequired c => s!"COUNT is required for the '{c.name}' category"
  | empty c => s!"empty '{c.name}' search criterion"
  | notATerm c token => s!"'{token}' is not a valid {c.name} search term"
  | duplicate c => "duplicate search criterion: " ++ c.describe

-- Problems are collected; an overlong numeral stops at once.
inductive CompileError where
  | problems (all : List TermProblem)
  | tooLong (e : Text.Numeral.TooLong)
  deriving DecidableEq, Repr

def CompileError.message : CompileError → String
  | problems all => Problems.render Problems.criteria (all.map TermProblem.message)
  | tooLong e => e.message

-- The terms of one criterion, the latest last. No two of them share a slot.
structure Draft where
  category : Category
  terms : List Term := []
  deriving DecidableEq, Repr

namespace Draft

def filled (d : Draft) (slot : Slot) : Bool := d.terms.any (·.slot = slot)

def fill (d : Draft) (term : Term) : Draft := { d with terms := d.terms ++ [term] }

def countRequired : List Category := [.food, .gold]

def criterion (d : Draft) (depth : Int) : Criterion :=
  d.terms.foldl Term.apply { category := d.category, maxDepth := depth }

def finish (d : Draft) (depth : Int) : Except TermProblem Criterion :=
  if countRequired.contains d.category && !d.filled .count then .error (.countRequired d.category)
  else if d.terms.isEmpty then .error (.empty d.category)
  else .ok (d.criterion depth)

end Draft

namespace Criterion

structure Compiling where
  draft : Draft
  done : List Criterion := []
  problems : List TermProblem := []
  deriving DecidableEq, Repr

namespace Compiling

def close (s : Compiling) (depth : Int) : Compiling :=
  let fresh : Draft := { category := s.draft.category }
  match s.draft.finish depth with
  | .ok c => { s with draft := fresh, done := s.done ++ [c] }
  | .error p => { s with draft := fresh, problems := s.problems ++ [p] }

def take (s : Compiling) (depth : Int) (term : Term) : Compiling :=
  let s := if s.draft.filled term.slot then s.close depth else s
  { s with draft := s.draft.fill term }

def result (s : Compiling) : Except CompileError (List Criterion) :=
  if s.problems.isEmpty then .ok s.done else .error (.problems s.problems)

-- A token that is no term ends the occurrence; what was found wrong before it
-- is reported with it, and the open draft is not judged.
def run (depth : Int) (s : Compiling) : List String → Except CompileError (List Criterion)
  | [] => (s.close depth).result
  | token :: rest =>
    match Term.read s.draft.category token with
    | .error e => .error (.tooLong e)
    | .ok none => .error (.problems (s.problems ++ [.notATerm s.draft.category token]))
    | .ok (some term) => run depth (s.take depth term) rest

end Compiling

def compileTokens (category : Category) (tokens : List String) (depth : Int) :
    Except CompileError (List Criterion) :=
  Compiling.run depth { draft := { category } } tokens

def duplicatesAfter (earlier : List Criterion) : List Criterion → List Criterion
  | [] => []
  | c :: rest =>
    (if earlier.contains c then [c] else []) ++ duplicatesAfter (earlier ++ [c]) rest

def duplicates (criteria : List Criterion) : List Criterion := duplicatesAfter [] criteria

abbrev Terms := Category → List (List String)

def occurrences (terms : Terms) : List (Category × List String) :=
  Category.searchOrder.flatMap fun c => (terms c).map (c, ·)

def compileEach (depth : Int) : List (Category × List String) →
    Except Text.Numeral.TooLong (List Criterion × List TermProblem)
  | [] => .ok ([], [])
  | (category, tokens) :: rest =>
    match compileTokens category tokens depth with
    | .error (.tooLong e) => .error e
    | .error (.problems ps) => do
      let (criteria, problems) ← compileEach depth rest
      return (criteria, ps ++ problems)
    | .ok cs => do
      let (criteria, problems) ← compileEach depth rest
      return (cs ++ criteria, problems)

def compile (terms : Terms) (depth : Int) : Except CompileError (List Criterion) :=
  match compileEach depth (occurrences terms) with
  | .error e => .error (.tooLong e)
  | .ok (criteria, problems) =>
    let problems := problems ++ (duplicates criteria).map .duplicate
    if problems.isEmpty then .ok criteria else .error (.problems problems)

end Criterion

end SeedSearch
