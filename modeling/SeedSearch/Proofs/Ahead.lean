import SeedSearch.Proofs.Sweep
import SeedSearch.Search

namespace SeedSearch
open Catalog (Row)
open Criterion

namespace Query

-- `q` has found `n` seeds more than `p`, with these matches in front, and is after
-- as many seeds more.
structure Ahead (found : List Match) (n : Nat) (p q : Query) : Prop where
  bounds : q.inBounds = p.inBounds
  criteria : q.criteria = p.criteria
  target : q.target = n + p.target
  successes : q.successes = n + p.successes
  results : q.results = found ++ p.results

variable {p q p' q' : Query} {found : List Match} {n : Nat} {run : List Row} {runs : List (List Row)}
  {fault : Option Fault} {feed : Feed Row}

theorem sweep_frame : (q.sweep fault runs).1.limits = q.limits ∧ (q.sweep fault runs).1.criteria = q.criteria := by
  induction runs generalizing q with
  | nil => exact ⟨rfl, rfl⟩
  | cons run rest ih =>
    cases rest with
    | nil =>
      unfold sweep
      split
      · exact ⟨rfl, rfl⟩
      · exact ⟨reap_limits, reap_criteria⟩
    | cons next rest =>
      unfold sweep
      split
      · exact ⟨rfl, rfl⟩
      · split
        · exact ⟨reap_limits, reap_criteria⟩
        · exact ⟨ih.1.trans reap_limits, ih.2.trans reap_criteria⟩

theorem scan_frame (q : Query) (feed : Feed Row) :
    (q.scan feed).query.limits = q.limits ∧ (q.scan feed).query.criteria = q.criteria := by
  obtain ⟨limits, criteria, -, -⟩ := alike_iff.mp (q.scan_agrees feed.items feed.fault).1
  exact ⟨limits.trans sweep_frame.1, criteria.trans sweep_frame.2⟩

theorem scanFile_frame (q : Query) (path : Path) (opened : Except Refusal (Feed Row)) :
    (q.scanFile path opened).query.limits = q.limits ∧ (q.scanFile path opened).query.criteria = q.criteria := by
  cases opened with
  | error refusal => exact ⟨rfl, rfl⟩
  | ok feed => exact q.scan_frame feed

namespace Ahead

theorem isComplete (ahead : Ahead found n p q) : q.isComplete = p.isComplete := by
  rw [Query.isComplete, Query.isComplete, ahead.target, ahead.successes, decide_eq_decide]
  omega

theorem runs_eq (ahead : Ahead found n p q) (rows : List Row) : q.runs rows = p.runs rows := by
  rw [Query.runs, Query.runs, ahead.bounds]

theorem of_alike (ahead : Ahead found n p q) (left : p'.Alike p) (right : q'.Alike q) : Ahead found n p' q' := by
  obtain ⟨limits, criteria, successes, results⟩ := alike_iff.mp left
  obtain ⟨limits', criteria', successes', results'⟩ := alike_iff.mp right
  refine ⟨?_, ?_, ?_, ?_, ?_⟩
  · rw [right.inBounds, left.inBounds, ahead.bounds]
  · rw [criteria', criteria, ahead.criteria]
  · have target := ahead.target
    simp only [Query.target] at target ⊢
    rw [limits', limits, target]
  · rw [successes', successes, ahead.successes]
  · rw [results', results, ahead.results]

theorem of_same (same : q.Alike p) : Ahead [] 0 p q := by
  obtain ⟨limits, criteria, successes, results⟩ := alike_iff.mp same
  exact ⟨same.inBounds, criteria, by simp [Query.target, limits], by simp [successes], by simp [results]⟩

theorem trans {r : Query} {others : List Match} {m : Nat} (first : Ahead found n p q)
    (second : Ahead others m q r) : Ahead (others ++ found) (m + n) p r := by
  refine ⟨second.bounds.trans first.bounds, second.criteria.trans first.criteria, ?_, ?_, ?_⟩
  · rw [second.target, first.target, Nat.cast_add, Int.add_assoc]
  · rw [second.successes, first.successes, Nat.add_assoc]
  · rw [second.results, first.results, List.append_assoc]

theorem reap (ahead : Ahead found n p q) (run : List Row) : Ahead found n (p.reap run) (q.reap run) := by
  by_cases kept : Kept p.criteria run
  · have keeps : Kept q.criteria run := ahead.criteria ▸ kept
    simp only [Query.reap, if_pos kept, if_pos keeps]
    refine ⟨ahead.bounds, ahead.criteria, ahead.target, ?_, ?_⟩
    · simp only [ahead.successes, Nat.add_assoc]
    · simp only [ahead.results, ahead.criteria, List.append_assoc]
  · have loses : ¬ Kept q.criteria run := ahead.criteria ▸ kept
    simpa only [Query.reap, if_neg kept, if_neg loses] using ahead

theorem sweep (ahead : Ahead found n p q) (fault : Option Fault) (runs : List (List Row)) :
    Ahead found n (p.sweep fault runs).1 (q.sweep fault runs).1 ∧ (q.sweep fault runs).2 = (p.sweep fault runs).2 := by
  induction runs generalizing p q with
  | nil => exact ⟨ahead, rfl⟩
  | cons run rest ih =>
    have closed := ahead.reap run
    cases rest with
    | nil =>
      simp only [Query.sweep, ahead.criteria]
      split
      · exact ⟨ahead, rfl⟩
      · exact ⟨closed, rfl⟩
    | cons next rest =>
      simp only [Query.sweep, ahead.criteria, closed.isComplete]
      split
      · exact ⟨ahead, rfl⟩
      · split
        · exact ⟨closed, rfl⟩
        · exact ih closed

theorem scan (ahead : Ahead found n p q) (feed : Feed Row) :
    Ahead found n (p.scan feed).query (q.scan feed).query ∧ (q.scan feed).committed = (p.scan feed).committed := by
  obtain ⟨left, leftEnd⟩ := p.scan_agrees feed.items feed.fault
  obtain ⟨right, rightEnd⟩ := q.scan_agrees feed.items feed.fault
  rw [ahead.runs_eq] at right rightEnd
  obtain ⟨swept, fault⟩ := ahead.sweep feed.fault (p.runs feed.items)
  refine ⟨swept.of_alike left right, rightEnd.trans (Eq.trans ?_ leftEnd.symm)⟩
  rw [fault, ahead.successes, swept.successes, Nat.add_sub_add_left]

theorem scanFile (ahead : Ahead found n p q) (path : Path) (opened : Except Refusal (Feed Row)) :
    Ahead found n (p.scanFile path opened).query (q.scanFile path opened).query ∧
      (q.scanFile path opened).committed = (p.scanFile path opened).committed := by
  cases opened with
  | error refusal => exact ⟨ahead, rfl⟩
  | ok feed => exact ahead.scan feed

end Ahead

end Query

end SeedSearch
