import SeedSearch.Limits
import SeedSearch.Match
import SeedSearch.Note

namespace SeedSearch
open Catalog (Row)

namespace Criterion

def magicAccepts (p : Polarity) (r : Row) : Bool :=
  if r.category.signedPolarity then
    match r.enchantment, p with
    | none, _ => false
    | some e, .good => 0 < e
    | some e, .bad => e < 0
  else if r.category.kindPolarity then
    Vocabulary.isMalevolent? r.category r.kind == some (decide (p = .bad))
  else false

def runicAccepts (d : Demand) (r : Row) : Bool :=
  match d with
  | .none => true
  | .keyword => r.category.hasRunic && r.runic ≠ ""
  | .named f => r.category.hasRunic && r.runic ≠ "" && Text.isFragment f r.runic

def statusAccepts (d : Demand) (r : Row) : Bool :=
  match d with
  | .none => true
  | .keyword => r.allyStatus = Vocabulary.legendaryStatus
  | .named f => Text.isFragment f r.allyStatus

def mutationAccepts (d : Demand) (r : Row) : Bool :=
  match d with
  | .none => true
  | .keyword => r.mutation ≠ ""
  | .named f => Text.isFragment f r.mutation

def enchantmentAccepts (t : Threshold) (r : Row) : Bool :=
  r.category.hasEnchantment && (r.enchantment.map t.accepts).getD false

-- Status and mutation are asked of allies only; what is not asked accepts every row.
def matchesRow (c : Criterion) (r : Row) : Bool :=
  (c.kind.map (Text.isFragment · r.kind)).getD true &&
  (c.enchantment.map (enchantmentAccepts · r)).getD true &&
  runicAccepts c.runic r &&
  c.vault.accepts r.inVault &&
  (c.magic.map (magicAccepts · r)).getD true &&
  (r.category ≠ .ally || (statusAccepts c.status r && mutationAccepts c.mutation r))

def accepts (c : Criterion) (r : Row) : Bool :=
  c.mask.intersects r.category.mask && r.depth ≤ c.maxDepth && c.matchesRow r

end Criterion

structure Query where
  limits : Limits
  tallies : List Tally
  successes : Nat := 0
  results : List Match := []
  deriving DecidableEq, Repr

structure Scratch where
  seed : Option Int := none
  buffer : List Match := []
  satisfied : Bool := false
  abandoned : Bool := false
  deriving DecidableEq, Repr

namespace Scratch

def start (_ : Scratch) (seed : Int) : Scratch := { seed := some seed }

def abandon (s : Scratch) : Scratch := { s with buffer := [], satisfied := false, abandoned := true }

def push (s : Scratch) (m : Match) : Scratch := { s with buffer := s.buffer ++ [m] }

end Scratch

namespace Query

def ofCriteria (limits : Limits) (criteria : List Criterion) : Query where
  limits := limits
  tallies := criteria.map fun c => { criterion := c }

def criteria (q : Query) : List Criterion := q.tallies.map (·.criterion)
def counts (q : Query) : List Int := q.tallies.map (·.count)
def target (q : Query) : Int := q.limits.matchesMax

def inBounds (q : Query) (r : Row) : Bool := q.limits.hasSeed r.seed && q.limits.hasDepth r.depth

def allSatisfied (q : Query) : Bool := q.tallies.all (·.satisfied)

def resetCounts (q : Query) : Query := { q with tallies := q.tallies.map (·.reset) }

def isComplete (q : Query) : Bool := q.target ≤ q.successes

def commit (q : Query) (s : Scratch) : Query :=
  { q with results := q.results ++ s.buffer, successes := q.successes + 1 }

-- A seed counts once it is over: criteria that were satisfied on the way may
-- have been overshot since.
def qualifies (q : Query) (s : Scratch) : Bool := s.satisfied && !s.abandoned && q.allSatisfied

def close (q : Query) (s : Scratch) : Query := if q.qualifies s then q.commit s else q

def takeRow (r : Row) : List Tally → Option (List Tally × Outcome)
  | [] => none
  | t :: rest =>
    if t.criterion.accepts r then
      let t := t.add r.quantity
      some (t :: rest, t.outcome)
    else (takeRow r rest).map fun (rest, outcome) => (t :: rest, outcome)

-- The quantity is counted even when the row turns out to describe no object.
def evaluate (q : Query) (r : Row) : Query × Except Fault (Option Match) :=
  match takeRow r q.tallies with
  | none => (q, .ok none)
  | some (tallies, outcome) =>
    ({ q with tallies },
      r.object.map fun object =>
        some { seed := r.seed, depth := r.depth, object, outcome, vault := r.vault, carriedBy := r.carriedBy })

end Query

end SeedSearch
