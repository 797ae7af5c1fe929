import Mathlib.Algebra.Ring.Int.Defs
import SeedSearch.Query

namespace SeedSearch
open Catalog (Row)

-- What a mode asks of the whole quantity, said apart from any running count.
def CountMode.Holds : CountMode → Int → Int → Prop
  | .atLeast, target, total => target ≤ total
  | .lessThan, target, total => total < target
  | .equalTo, target, total => total = target

instance : (mode : CountMode) → (target total : Int) → Decidable (mode.Holds target total)
  | .atLeast, target, total => inferInstanceAs (Decidable (target ≤ total))
  | .lessThan, target, total => inferInstanceAs (Decidable (total < target))
  | .equalTo, target, total => inferInstanceAs (Decidable (total = target))

namespace Criterion

def Met (c : Criterion) (total : Int) : Prop := c.mode.Holds c.target total

instance (c : Criterion) (total : Int) : Decidable (c.Met total) :=
  inferInstanceAs (Decidable (c.mode.Holds _ _))

def taker (cs : List Criterion) (r : Row) : Option Nat := cs.findIdx? (·.accepts r)

-- The quantity that the criterion at place `i` gets of some rows.
def share (cs : List Criterion) (rows : List Row) (i : Nat) : Int :=
  ((rows.filter fun r => taker cs r = some i).map (·.quantity)).sum

def tallied (cs : List Criterion) (rows : List Row) : List Tally :=
  cs.mapIdx fun i c => { criterion := c, count := share cs rows i }

def outcomeAt (cs : List Criterion) (before : List Row) (r : Row) : Option Outcome :=
  (taker cs r).bind fun i => cs[i]?.map fun c =>
    Tally.outcome { criterion := c, count := share cs (before ++ [r]) i }

end Criterion

namespace Tally

theorem satisfied_iff (t : Tally) : t.satisfied = true ↔ t.criterion.Met t.count := by
  unfold satisfied Criterion.Met
  cases t.criterion.mode <;> simp [CountMode.Holds]

-- Only a bound from above can be overshot.
theorem outcome_exit_iff (t : Tally) : t.outcome = .earlyExit ↔
    (t.criterion.mode = .lessThan ∧ t.criterion.target ≤ t.count) ∨
    (t.criterion.mode = .equalTo ∧ t.criterion.target < t.count) := by
  unfold outcome
  cases t.criterion.mode with
  | atLeast => by_cases below : t.count ≤ t.criterion.target <;> simp [below]
  | lessThan => simp
  | equalTo => simp

end Tally

namespace Criterion

variable {cs : List Criterion} {before rows : List Row} {r : Row} {i : Nat}

@[simp] theorem share_nil : share cs [] i = 0 := rfl

theorem share_append : share cs (before ++ rows) i = share cs before i + share cs rows i := by
  simp [share]

theorem share_single : share cs [r] i = if taker cs r = some i then r.quantity else 0 := by
  by_cases takes : taker cs r = some i <;> simp [share, takes]

theorem share_nonneg (nonneg : ∀ r ∈ rows, 0 ≤ r.quantity) : 0 ≤ share cs rows i := by
  induction rows with
  | nil => simp
  | cons r rest ih =>
    have here := nonneg r (by simp)
    have later := ih fun x member => nonneg x (by simp [member])
    rw [← List.singleton_append, share_append, share_single]
    split <;> omega

theorem share_untaken (untaken : taker cs r = none) : share cs (before ++ [r]) i = share cs before i := by
  simp [share_append, share_single, untaken]

theorem taker_isSome : (taker cs r).isSome = true ↔ ∃ c ∈ cs, c.accepts r = true := by
  simp [taker, List.findIdx?_isSome]

theorem exists_of_taker (takes : taker cs r = some i) : ∃ c, cs[i]? = some c := by
  obtain ⟨bound, -⟩ := List.findIdx?_eq_some_iff_getElem.mp takes
  exact ⟨cs[i], List.getElem?_eq_getElem bound⟩

theorem outcomeAt_isSome (before : List Row) : (outcomeAt cs before r).isSome = (taker cs r).isSome := by
  cases takes : taker cs r with
  | none => simp [outcomeAt, takes]
  | some i =>
    obtain ⟨c, here⟩ := exists_of_taker takes
    simp [outcomeAt, takes, here]

theorem isSome_of_outcomeAt {outcome : Outcome} (counted : outcomeAt cs before r = some outcome) :
    (taker cs r).isSome = true := by
  rw [← outcomeAt_isSome before, counted, Option.isSome_some]

theorem untaken_of_outcomeAt (untaken : outcomeAt cs before r = none) : taker cs r = none := by
  have same : (outcomeAt cs before r).isSome = (taker cs r).isSome := outcomeAt_isSome before
  simpa [untaken] using same.symm

theorem exists_outcomeAt (before : List Row) (takes : (taker cs r).isSome = true) :
    ∃ outcome, outcomeAt cs before r = some outcome := by
  rw [← outcomeAt_isSome before] at takes
  exact Option.isSome_iff_exists.mp takes

@[simp] theorem tallied_criteria : (tallied cs rows).map (·.criterion) = cs := by
  apply List.ext_getElem?
  intro i
  simp [tallied, Function.comp_def]

theorem tallied_nil : tallied cs [] = cs.map fun c => { criterion := c } := by
  apply List.ext_getElem?
  intro i
  simp [tallied]

theorem tallied_untaken (untaken : taker cs r = none) : tallied cs (before ++ [r]) = tallied cs before := by
  simp [tallied, share_untaken untaken]

theorem takeRow_eq (r : Row) (ts : List Tally) :
    Query.takeRow r ts = (taker (ts.map (·.criterion)) r).bind fun i => ts[i]?.map fun t =>
      (ts.modify i (·.add r.quantity), (t.add r.quantity).outcome) := by
  induction ts with
  | nil => rfl
  | cons t rest ih =>
    by_cases takes : t.criterion.accepts r = true
    · simp [Query.takeRow, taker, takes, List.findIdx?_cons]
    · simp only [Query.takeRow, takes, ih, taker, List.map_cons, List.findIdx?_cons]
      cases List.findIdx? (·.accepts r) (rest.map (·.criterion)) with
      | none => simp
      | some i => cases h : rest[i]? <;> simp [h]

theorem tallied_modify (takes : taker cs r = some i) :
    (tallied cs before).modify i (·.add r.quantity) = tallied cs (before ++ [r]) := by
  apply List.ext_getElem?
  intro j
  cases here : cs[j]? with
  | none =>
    have beyond := List.getElem?_eq_none_iff.mp here
    simp [tallied, beyond]
  | some c =>
    by_cases same : i = j
    · subst j
      simp [tallied, here, Tally.add, share_append, share_single, takes]
    · simp [tallied, here, same, share_append, share_single, takes]

theorem takeRow_tallied : Query.takeRow r (tallied cs before) =
    (outcomeAt cs before r).map fun outcome => (tallied cs (before ++ [r]), outcome) := by
  rw [takeRow_eq, tallied_criteria]
  cases takes : taker cs r with
  | none => simp [outcomeAt, takes]
  | some i =>
    obtain ⟨c, here⟩ := exists_of_taker takes
    have counted : (tallied cs before)[i]? = some { criterion := c, count := share cs before i } := by
      simp [tallied, here]
    simp only [Option.bind_some, counted, Option.map_some, tallied_modify takes, outcomeAt, takes, here]
    simp [Tally.add, share_append, share_single, takes]

end Criterion

end SeedSearch
