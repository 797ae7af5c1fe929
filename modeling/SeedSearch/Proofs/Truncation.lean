import SeedSearch.Proofs.Isolation

namespace SeedSearch
open Catalog (Row)
open Criterion

namespace Query

structure Extends (p q : Query) : Prop where
  results : p.results <+: q.results
  successes : p.successes ≤ q.successes

-- Two searches that have found the same, of which `q` is after no fewer seeds.
structure Level (p q : Query) : Prop where
  bounds : q.inBounds = p.inBounds
  criteria : q.criteria = p.criteria
  target : p.target ≤ q.target
  successes : q.successes = p.successes
  results : q.results = p.results

-- The first search has just met its target, the second may have gone on.
structure Outrun (p q : Query) : Prop where
  met : (p.successes : Int) = p.target
  kept : p.Extends q

variable {p q p' q' : Query} {run : List Row} {runs : List (List Row)} {fault : Option Fault} {feed : Feed Row}
  {path : Path} {opened : Except Refusal (Feed Row)}

namespace Extends

theorem refl (q : Query) : q.Extends q := ⟨List.prefix_refl _, Nat.le_refl _⟩

theorem trans {r : Query} (first : p.Extends q) (second : q.Extends r) : p.Extends r :=
  ⟨first.results.trans second.results, Nat.le_trans first.successes second.successes⟩

theorem of_same (successes : q.successes = p.successes) (results : q.results = p.results) : p.Extends q :=
  ⟨results ▸ List.prefix_refl _, Nat.le_of_eq successes.symm⟩

theorem of_alike (same : p.Alike q) : p.Extends q := by
  obtain ⟨-, -, successes, results⟩ := alike_iff.mp same
  exact of_same successes.symm results.symm

theorem reap (q : Query) (run : List Row) : q.Extends (q.reap run) := by
  unfold Query.reap
  split
  · exact ⟨List.prefix_append _ _, Nat.le_succ _⟩
  · exact refl q

theorem sweep (q : Query) (fault : Option Fault) (runs : List (List Row)) : q.Extends (q.sweep fault runs).1 := by
  induction runs generalizing q with
  | nil => exact refl q
  | cons run rest ih =>
    cases rest with
    | nil =>
      unfold Query.sweep
      split
      · exact refl q
      · exact reap q run
    | cons next rest =>
      unfold Query.sweep
      split
      · exact refl q
      · split
        · exact reap q run
        · exact (reap q run).trans (ih (q.reap run))

theorem scan (q : Query) (feed : Feed Row) : q.Extends (q.scan feed).query := by
  obtain ⟨frame, -⟩ := q.scan_agrees feed.items feed.fault
  exact (sweep q feed.fault (q.runs feed.items)).trans (of_alike frame.symm)

theorem scanFile (q : Query) (path : Path) (opened : Except Refusal (Feed Row)) :
    q.Extends (q.scanFile path opened).query := by
  cases opened with
  | error refusal => exact refl q
  | ok feed => exact scan q feed

end Extends

theorem reap_successes (run : List Row) : (q.reap run).successes ≤ q.successes + 1 := by
  unfold reap
  split
  · exact Nat.le_refl _
  · exact Nat.le_succ _

@[simp] theorem reap_target : (q.reap run).target = q.target := by
  rw [target, target, reap_limits]

@[simp] theorem scanFile_target : (q.scanFile path opened).query.target = q.target := by
  rw [target, target, (q.scanFile_frame path opened).1]

theorem met_of_reap (short : q.isComplete = false) (complete : (q.reap run).isComplete = true) :
    ((q.reap run).successes : Int) = (q.reap run).target := by
  have once := reap_successes (q := q) run
  simp only [isComplete, decide_eq_false_iff_not, decide_eq_true_eq, reap_target] at short complete ⊢
  omega

namespace Outrun

theorem of_alike (outrun : Outrun p q) (left : p'.Alike p) (right : q'.Alike q) : Outrun p' q' := by
  obtain ⟨limits, -, successes, -⟩ := alike_iff.mp left
  refine ⟨?_, (Extends.of_alike left).trans (outrun.kept.trans (.of_alike right.symm))⟩
  rw [successes, outrun.met, target, target, limits]

end Outrun

namespace Level

theorem isComplete (level : Level p q) (short : p.isComplete = false) : q.isComplete = false := by
  have target := level.target
  simp only [Query.isComplete, decide_eq_false_iff_not, level.successes] at short ⊢
  omega

theorem of_alike (level : Level p q) (left : p'.Alike p) (right : q'.Alike q) : Level p' q' := by
  obtain ⟨limits, criteria, successes, results⟩ := alike_iff.mp left
  obtain ⟨limits', criteria', successes', results'⟩ := alike_iff.mp right
  refine ⟨?_, ?_, ?_, ?_, ?_⟩
  · rw [right.inBounds, left.inBounds, level.bounds]
  · rw [criteria', criteria, level.criteria]
  · have target := level.target
    simp only [Query.target] at target ⊢
    rwa [limits', limits]
  · rw [successes', successes, level.successes]
  · rw [results', results, level.results]

theorem reap (level : Level p q) (run : List Row) : Level (p.reap run) (q.reap run) := by
  have target : (p.reap run).target ≤ (q.reap run).target := by simpa using level.target
  by_cases kept : Kept p.criteria run
  · have keeps : Kept q.criteria run := level.criteria ▸ kept
    simp only [Query.reap, if_pos kept, if_pos keeps] at target ⊢
    exact ⟨level.bounds, level.criteria, target, by rw [level.successes], by rw [level.results, level.criteria]⟩
  · have loses : ¬ Kept q.criteria run := level.criteria ▸ kept
    simpa only [Query.reap, if_neg kept, if_neg loses] using level

theorem sweep (level : Level p q) (short : p.isComplete = false) (fault : Option Fault) (runs : List (List Row)) :
    (Level (p.sweep fault runs).1 (q.sweep fault runs).1 ∧ (p.sweep fault runs).1.isComplete = false ∧
      (q.sweep fault runs).2 = (p.sweep fault runs).2) ∨
    (Outrun (p.sweep fault runs).1 (q.sweep fault runs).1 ∧ (p.sweep fault runs).2 = none) := by
  induction runs generalizing p q with
  | nil => exact Or.inl ⟨level, short, rfl⟩
  | cons run rest ih =>
    have closed := level.reap run
    have same : (p.reap run).Extends (q.reap run) := .of_same closed.successes closed.results
    cases rest with
    | nil =>
      simp only [Query.sweep, level.criteria]
      split
      · exact Or.inl ⟨level, short, rfl⟩
      · by_cases complete : (p.reap run).isComplete = true
        · exact Or.inr ⟨⟨met_of_reap short complete, same⟩, rfl⟩
        · exact Or.inl ⟨closed, by simpa using complete, rfl⟩
    | cons next rest =>
      simp only [Query.sweep, level.criteria]
      split
      · exact Or.inl ⟨level, short, rfl⟩
      · by_cases complete : (p.reap run).isComplete = true
        · rw [if_pos complete]
          refine Or.inr ⟨⟨met_of_reap short complete, same.trans ?_⟩, rfl⟩
          split
          · exact .refl _
          · exact .sweep _ fault (next :: rest)
        · have still : (p.reap run).isComplete = false := by simpa using complete
          rw [still, closed.isComplete still]
          exact ih closed still

theorem scan (level : Level p q) (short : p.isComplete = false) (feed : Feed Row) :
    (Level (p.scan feed).query (q.scan feed).query ∧ (p.scan feed).query.isComplete = false ∧
      (q.scan feed).committed = (p.scan feed).committed) ∨
    (Outrun (p.scan feed).query (q.scan feed).query ∧ ∃ n, (p.scan feed).committed = .ok n) := by
  obtain ⟨left, leftEnd⟩ := p.scan_agrees feed.items feed.fault
  obtain ⟨right, rightEnd⟩ := q.scan_agrees feed.items feed.fault
  have runs : q.runs feed.items = p.runs feed.items := by rw [Query.runs, Query.runs, level.bounds]
  rw [runs] at right rightEnd
  rcases level.sweep short feed.fault (p.runs feed.items) with ⟨swept, open', fault⟩ | ⟨outrun, none⟩
  · refine Or.inl ⟨swept.of_alike left right, left.isComplete.trans open', rightEnd.trans (Eq.trans ?_ leftEnd.symm)⟩
    rw [fault, level.successes, swept.successes]
  · rw [none] at leftEnd
    exact Or.inr ⟨outrun.of_alike left right, _, leftEnd⟩

theorem scanFile (level : Level p q) (short : p.isComplete = false) (path : Path)
    (opened : Except Refusal (Feed Row)) :
    (Level (p.scanFile path opened).query (q.scanFile path opened).query ∧
      (p.scanFile path opened).query.isComplete = false ∧
      (q.scanFile path opened).committed = (p.scanFile path opened).committed) ∨
    (Outrun (p.scanFile path opened).query (q.scanFile path opened).query ∧
      ∃ n, (p.scanFile path opened).committed = .ok n) := by
  cases opened with
  | error refusal => exact Or.inl ⟨level, short, rfl⟩
  | ok feed => exact level.scan short feed

end Level

end Query

namespace Search

structure Extends (s t : Search) : Prop where
  query : s.query.Extends t.query
  visited : s.visited ≤ t.visited
  errors : s.errors <+: t.errors

structure Level (s t : Search) : Prop where
  query : s.query.Level t.query
  visited : t.visited = s.visited
  errors : t.errors = s.errors

variable {read : Path → Except Refusal (Feed Row)} {stop : Bool} {s t after short long : Search} {path : Path}
  {paths : List Path} {limits : Limits} {criteria : List Criterion} {m m' : Int}

theorem Extends.refl (s : Search) : s.Extends s := ⟨.refl _, Nat.le_refl _, List.prefix_refl _⟩

theorem Extends.trans (first : s.Extends t) (second : t.Extends after) : s.Extends after :=
  ⟨first.query.trans second.query, Nat.le_trans first.visited second.visited, first.errors.trans second.errors⟩

theorem goes_of_run (open' : s.query.isComplete = false) (ran : run read stop s (path :: paths) = (after, none)) :
    ∀ f, (s.query.scanFile path (read path)).committed = .error f → ¬ f.Ends stop := by
  intro f failed ends
  obtain ⟨last, ended, -⟩ := run_cons_ends open' failed ends
  rw [ended] at ran
  cases ran

theorem run_extends (ran : run read stop s paths = (after, none)) : s.Extends after := by
  induction paths generalizing s with
  | nil =>
    cases ran
    exact .refl after
  | cons path rest ih =>
    cases complete : s.query.isComplete with
    | true =>
      rw [run_complete complete] at ran
      cases ran
      exact .refl after
    | false =>
      obtain ⟨next, steps, query, visited, errors⟩ := run_cons_goes complete (goes_of_run complete ran)
      have one : s.Extends next := by
        refine ⟨?_, ?_, ?_⟩
        · rw [query]
          exact .scanFile _ path _
        · rw [visited]
          exact Nat.le_succ _
        · rw [errors]
          exact List.prefix_append _ _
      exact one.trans (ih (steps rest ▸ ran))

-- The first search stops behind a file that gave it enough, wherever the second
-- one goes from there.
theorem run_outrun (level : s.Level t) (open' : s.query.isComplete = false)
    (outrun : (s.query.scanFile path (read path)).query.Outrun (t.query.scanFile path (read path)).query)
    (done : ∃ n, (s.query.scanFile path (read path)).committed = .ok n)
    (ran : run read stop t (path :: paths) = (long, none)) :
    ∃ short, run read stop s (path :: paths) = (short, none) ∧ short.Extends long ∧
      (short.query.successes : Int) = min s.query.target long.query.successes := by
  obtain ⟨n, done⟩ := done
  have wider := level.query.isComplete open'
  obtain ⟨nextLong, stepsLong, queryLong, visitedLong, errorsLong⟩ := run_cons_goes wider (goes_of_run wider ran)
  have later : nextLong.Extends long := run_extends (stepsLong paths ▸ ran)
  have goes : ∀ f, (s.query.scanFile path (read path)).committed = .error f → ¬ f.Ends stop := by
    intro f failed
    rw [done] at failed
    cases failed
  obtain ⟨next, steps, query, visited, errors⟩ := run_cons_goes open' goes
  have met : (next.query.successes : Int) = s.query.target := by
    rw [query, outrun.met, Query.scanFile_target]
  have kept : next.query.Extends long.query := by
    apply Query.Extends.trans _ later.query
    rw [query, queryLong]
    exact outrun.kept
  have aim : next.query.target = next.query.successes := by
    rw [met, query, Query.scanFile_target]
  have complete : next.query.isComplete = true := decide_eq_true (Int.le_of_eq aim)
  refine ⟨next, (steps paths).trans (run_complete complete), ⟨kept, ?_, ?_⟩, ?_⟩
  · rw [visited, ← level.visited, ← visitedLong]
    exact later.visited
  · have none : (s.query.scanFile path (read path)).failure? path = none := by
      rw [Scan.Result.failure?, done]
    rw [errors, none, Option.toList_none, List.append_nil, ← level.errors]
    apply List.IsPrefix.trans _ later.errors
    rw [errorsLong]
    exact List.prefix_append _ _
  · have enough := kept.successes
    omega

-- Two searches that are level go on alike, until the first has enough and the
-- second is at a later point.
theorem run_level (level : s.Level t) (open' : s.query.isComplete = false)
    (ran : run read stop t paths = (long, none)) :
    ∃ short, run read stop s paths = (short, none) ∧ short.Extends long ∧
      (short.query.successes : Int) = min s.query.target long.query.successes := by
  induction paths generalizing s t with
  | nil =>
    cases ran
    refine ⟨s, rfl, ⟨.of_same level.query.successes level.query.results, ?_, ?_⟩, ?_⟩
    · exact Nat.le_of_eq level.visited.symm
    · exact level.errors ▸ List.prefix_refl _
    · simp only [Query.isComplete, decide_eq_false_iff_not] at open'
      rw [level.query.successes]
      omega
  | cons path rest ih =>
    rcases level.query.scanFile open' path (read path) with ⟨scanned, still, committed⟩ | ⟨outrun, done⟩
    · have wider := level.query.isComplete open'
      obtain ⟨nextLong, stepsLong, queryLong, visitedLong, errorsLong⟩ := run_cons_goes wider (goes_of_run wider ran)
      have goes : ∀ f, (s.query.scanFile path (read path)).committed = .error f → ¬ f.Ends stop :=
        committed ▸ goes_of_run wider ran
      obtain ⟨next, steps, query, visited, errors⟩ := run_cons_goes open' goes
      have levelNext : next.Level nextLong := by
        refine ⟨?_, ?_, ?_⟩
        · rw [query, queryLong]
          exact scanned
        · rw [visited, visitedLong, level.visited]
        · rw [errors, errorsLong, level.errors, Scan.Result.failure?, Scan.Result.failure?, committed]
      obtain ⟨short, ranShort, extended, successes⟩ := ih levelNext (query ▸ still) (stepsLong rest ▸ ran)
      rw [query, Query.scanFile_target] at successes
      exact ⟨short, (steps rest).trans ranShort, extended, successes⟩
    · exact run_outrun level open' outrun done ran

-- A search for fewer seeds returns whenever one for more seeds does, and its
-- report is cut off from the report of that one.
theorem run_truncates (read : Path → Except Refusal (Feed Row)) (stop : Bool) (limits : Limits)
    (criteria : List Criterion) (paths : List Path) (m m' : Int) (some : 1 ≤ m) (more : m ≤ m') (long : Search)
    (ran : run read stop (fresh (limits.wanting m') criteria) paths = (long, none)) :
    ∃ short, run read stop (fresh (limits.wanting m) criteria) paths = (short, none) ∧
      short.report.found <+: long.report.found ∧
      short.report.successes = min m long.report.successes ∧
      short.report.filesScanned ≤ long.report.filesScanned ∧
      short.report.errors <+: long.report.errors := by
  have level : (fresh (limits.wanting m) criteria).Level (fresh (limits.wanting m') criteria) :=
    ⟨⟨rfl, rfl, more, rfl, rfl⟩, rfl, rfl⟩
  have open' : (fresh (limits.wanting m) criteria).query.isComplete = false := by
    rw [Query.isComplete, decide_eq_false_iff_not]
    exact Int.not_le.mpr some
  obtain ⟨short, ranShort, extended, successes⟩ := run_level level open' ran
  exact ⟨short, ranShort, extended.query.results, successes, Int.ofNat_le.mpr extended.visited, extended.errors⟩

-- The first file breaks off and the second one cannot be opened, but only the
-- longer search gets as far.
theorem run_truncates_broken_shelf :
    ∃ short, run brokenShelf false (fresh { matchesMax := 1 } fives) brokenPaths = (short, none) ∧
      short.report.successes = 1 ∧ short.report.filesScanned ≤ 3 ∧
      short.report.errors <+: [.of {} (.decoding .missingMark), .of { parts := ["b"] } (.access .missing { parts := ["b"] })] := by
  have facts : (run brokenShelf false (fresh { matchesMax := 2 } fives) brokenPaths).2 = none ∧
      (run brokenShelf false (fresh { matchesMax := 2 } fives) brokenPaths).1.report.successes = 2 ∧
      (run brokenShelf false (fresh { matchesMax := 2 } fives) brokenPaths).1.report.filesScanned = 3 ∧
      (run brokenShelf false (fresh { matchesMax := 2 } fives) brokenPaths).1.report.errors =
        [.of {} (.decoding .missingMark), .of { parts := ["b"] } (.access .missing { parts := ["b"] })] := by
    decide +kernel
  cases ran : run brokenShelf false (fresh { matchesMax := 2 } fives) brokenPaths with
  | mk long ending =>
    rw [ran] at facts
    obtain ⟨rfl, successes, scanned, errors⟩ := facts
    obtain ⟨short, ranShort, -, found, visited, faults⟩ :=
      run_truncates brokenShelf false {} fives brokenPaths 1 2 (by decide) (by decide) long ran
    rw [successes] at found
    rw [scanned] at visited
    rw [errors] at faults
    exact ⟨short, ranShort, found, visited, faults⟩

end Search

end SeedSearch
