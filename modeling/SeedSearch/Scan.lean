import SeedSearch.Query

namespace SeedSearch
open Catalog (Row)

structure Scan where
  query : Query
  scratch : Scratch := {}
  notes : List Note := []
  deriving DecidableEq, Repr

namespace Scan

inductive Stop where
  | complete
  | fault (f : Fault)
  deriving DecidableEq, Repr

def close (s : Scan) : Scan :=
  match s.scratch.seed with
  | none => s
  | some seed =>
    if s.query.qualifies s.scratch then
      let query := s.query.commit s.scratch
      { s with query, notes := .satisfied seed query.successes query.target :: s.notes }
    else s

-- True if the target was met by closing the seed before the row's.
def enter (s : Scan) (seed : Int) : Scan × Bool :=
  if s.scratch.seed = some seed then (s, false)
  else
    let s := s.close
    if s.scratch.seed.isSome && s.query.isComplete then (s, true)
    else ({ s with scratch := s.scratch.start seed, query := s.query.resetCounts }, false)

def record (s : Scan) (m : Match) : Scan :=
  if m.outcome.abandons then
    { s with scratch := s.scratch.abandon, notes := .abandoned m.seed m.depth :: s.notes }
  else
    let scratch := s.scratch.push m
    { s with scratch := { scratch with satisfied := scratch.satisfied || s.query.allSatisfied } }

def step (s : Scan) (r : Row) : Scan × Option Stop :=
  if !s.query.inBounds r then (s, none)
  else
    match s.enter r.seed with
    | (s, true) => (s, some .complete)
    | (s, false) =>
      if s.scratch.abandoned then (s, none)
      else
        match s.query.evaluate r with
        | (query, .error f) => ({ s with query }, some (.fault f))
        | (query, .ok none) => ({ s with query }, none)
        | (query, .ok (some m)) => (record { s with query } m, none)

def run (s : Scan) : List Row → Scan × Option Stop
  | [] => (s, none)
  | r :: rest =>
    match s.step r with
    | (s, none) => run s rest
    | (s, some stop) => (s, some stop)

structure Result where
  query : Query
  notes : List Note
  committed : Except Fault Nat

-- A fault leaves the open seed uncommitted, whatever was found in it.
def finish (before : Nat) (s : Scan) : Option Stop → Option Fault → Result
  | some .complete, _ => done s
  | some (.fault f), _ => ⟨s.query, s.notes.reverse, .error f⟩
  | none, some f => ⟨s.query, s.notes.reverse, .error f⟩
  | none, none => done s.close
where
  done (s : Scan) : Result := ⟨s.query, s.notes.reverse, .ok (s.query.successes - before)⟩

end Scan

def Query.scan (q : Query) (rows : Feed Row) : Scan.Result :=
  let (s, stop) := Scan.run { query := q.resetCounts } rows.items
  s.finish q.successes stop rows.fault

end SeedSearch
