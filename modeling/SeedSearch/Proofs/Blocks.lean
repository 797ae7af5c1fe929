import SeedSearch.Proofs.Isolation
import SeedSearch.Proofs.LimitProblems
import SeedSearch.Proofs.SeedTotals

namespace SeedSearch
open Catalog (Row)

structure OfSeed (limits : Limits) (seed : Int) (found : List Match) : Prop where
  seeds : limits.seedMin ≤ seed ∧ seed ≤ limits.seedMax
  one : ∀ m ∈ found, m.seed = seed
  depths : ∀ m ∈ found, limits.depthMin ≤ m.depth ∧ m.depth ≤ limits.depthMax
  live : ∀ m ∈ found, m.outcome ≠ .earlyExit

def Block (limits : Limits) (found : List Match) : Prop := found ≠ [] ∧ ∃ seed, OfSeed limits seed found

namespace OfSeed

variable {limits : Limits} {seed : Int} {found : List Match} {m : Match}

theorem empty (bounds : limits.hasSeed seed = true) : OfSeed limits seed [] := by
  simp only [Limits.hasSeed, Bool.and_eq_true, decide_eq_true_eq] at bounds
  exact ⟨bounds, by simp, by simp, by simp⟩

theorem push (ofSeed : OfSeed limits seed found) (same : m.seed = seed) (depth : limits.hasDepth m.depth = true)
    (stays : m.outcome ≠ .earlyExit) : OfSeed limits seed (found ++ [m]) := by
  simp only [Limits.hasDepth, Bool.and_eq_true, decide_eq_true_eq] at depth
  refine ⟨ofSeed.seeds, ?_, ?_, ?_⟩
  all_goals
    intro x member
    rcases List.mem_append.mp member with earlier | here
  · exact ofSeed.one x earlier
  · rw [List.mem_singleton.mp here, same]
  · exact ofSeed.depths x earlier
  · rw [List.mem_singleton.mp here]
    exact depth
  · exact ofSeed.live x earlier
  · rw [List.mem_singleton.mp here]
    exact stays

end OfSeed

namespace Query

variable {limits : Limits} {p q : Query} {r : Row}

structure Whole (limits : Limits) (q : Query) : Prop where
  bounds : q.limits = limits
  atMost : q.successes ≤ limits.matchesMax
  blocks : ∃ blocks : List (List Match), q.results = blocks.flatten ∧ blocks.length = q.successes ∧
    ∀ block ∈ blocks, Block limits block

theorem Whole.recount (whole : q.Whole limits) (tallies : List Tally) : ({ q with tallies } : Query).Whole limits :=
  ⟨whole.bounds, whole.atMost, whole.blocks⟩

theorem Whole.commit {scratch : Scratch} (whole : q.Whole limits) (short : q.isComplete = false)
    (block : Block limits scratch.buffer) : (q.commit scratch).Whole limits := by
  obtain ⟨blocks, results, count, all⟩ := whole.blocks
  refine ⟨whole.bounds, ?_, blocks ++ [scratch.buffer], ?_, ?_, ?_⟩
  · rw [isComplete, decide_eq_false_iff_not, target, whole.bounds] at short
    simp only [Query.commit]
    omega
  · simp [Query.commit, results]
  · simp [Query.commit, count]
  · intro x member
    rcases List.mem_append.mp member with earlier | here
    · exact all x earlier
    · rw [List.mem_singleton.mp here]
      exact block

theorem Whole.evaluate (whole : q.Whole limits) (r : Row) : (q.evaluate r).1.Whole limits := by
  unfold Query.evaluate
  split
  · exact whole
  · exact whole.recount _

theorem evaluate_isComplete (q : Query) (r : Row) : (q.evaluate r).1.isComplete = q.isComplete := by
  unfold evaluate
  split <;> rfl

theorem evaluate_match {m : Match} (taken : (q.evaluate r).2 = .ok (some m)) :
    m.seed = r.seed ∧ m.depth = r.depth := by
  unfold evaluate at taken
  split at taken
  · cases taken
  · cases object : r.object with
    | error f =>
      rw [object] at taken
      cases taken
    | ok o =>
      rw [object] at taken
      cases taken
      exact ⟨rfl, rfl⟩

end Query

namespace Scan

variable {limits : Limits} {s : Scan} {r : Row} {rows : List Row} {seed : Int} {m : Match}

structure Tidy (limits : Limits) (s : Scan) : Prop where
  whole : s.query.Whole limits
  short : s.query.isComplete = false
  opened : ∀ seed, s.scratch.seed = some seed → OfSeed limits seed s.scratch.buffer
  latched : s.scratch.satisfied = true → s.scratch.buffer ≠ []

namespace Tidy

theorem fresh {q : Query} (whole : q.Whole limits) (short : q.isComplete = false) :
    ({ query := q.resetCounts } : Scan).Tidy limits :=
  ⟨whole.recount _, short, by simp, by simp⟩

theorem close (tidy : s.Tidy limits) : s.close.query.Whole limits := by
  unfold Scan.close
  cases seed : s.scratch.seed with
  | none => exact tidy.whole
  | some n =>
    by_cases qualifies : s.query.qualifies s.scratch = true
    · have satisfied : s.scratch.satisfied = true := by
        simp only [Query.qualifies, Bool.and_eq_true] at qualifies
        exact qualifies.1.1
      simp only [if_pos qualifies]
      exact tidy.whole.commit tidy.short ⟨tidy.latched satisfied, n, tidy.opened n seed⟩
    · simp only [if_neg qualifies]
      exact tidy.whole

theorem start (whole : s.query.Whole limits) (short : s.query.isComplete = false)
    (bounds : limits.hasSeed seed = true) :
    ({ s with scratch := s.scratch.start seed, query := s.query.resetCounts } : Scan).Tidy limits := by
  refine ⟨whole.recount _, short, ?_, ?_⟩
  · rintro _ ⟨⟩
    exact .empty bounds
  · intro satisfied
    cases satisfied

theorem enter (tidy : s.Tidy limits) (bounds : limits.hasSeed seed = true) :
    (s.enter seed).1.query.Whole limits ∧
    ((s.enter seed).2 = false → (s.enter seed).1.Tidy limits ∧ (s.enter seed).1.scratch.seed = some seed) := by
  unfold Scan.enter
  by_cases same : s.scratch.seed = some seed
  · rw [if_pos same]
    exact ⟨tidy.whole, fun _ => ⟨tidy, same⟩⟩
  · rw [if_neg same]
    by_cases complete : (s.close.scratch.seed.isSome && s.close.query.isComplete) = true
    · rw [if_pos complete]
      exact ⟨tidy.close, by simp⟩
    · rw [if_neg complete]
      -- Where no seed was open, the target is not asked for and nothing was committed.
      have short : s.close.query.isComplete = false := by
        cases none : s.scratch.seed with
        | none =>
          have kept : s.close = s := by simp [Scan.close, none]
          rw [kept]
          exact tidy.short
        | some n => simpa [none] using complete
      have tidied := start tidy.close short bounds
      exact ⟨tidied.whole, fun _ => ⟨tidied, rfl⟩⟩

theorem record (tidy : s.Tidy limits) (own : s.scratch.seed = some m.seed)
    (depth : limits.hasDepth m.depth = true) : (s.record m).Tidy limits := by
  unfold Scan.record
  by_cases abandons : m.outcome.abandons = true
  · rw [if_pos abandons]
    refine ⟨tidy.whole, tidy.short, ?_, ?_⟩
    · intro seed opened
      have before := tidy.opened seed opened
      exact ⟨before.seeds, by simp [Scratch.abandon], by simp [Scratch.abandon], by simp [Scratch.abandon]⟩
    · intro satisfied
      cases satisfied
  · rw [if_neg abandons]
    refine ⟨tidy.whole, tidy.short, ?_, ?_⟩
    · intro seed opened
      have same : m.seed = seed := Option.some.inj (own.symm.trans opened)
      exact (tidy.opened seed opened).push same depth (by simpa [Outcome.abandons] using abandons)
    · intro _
      simp [Scratch.push]

theorem step (tidy : s.Tidy limits) (r : Row) :
    (s.step r).1.query.Whole limits ∧ ((s.step r).2 = none → (s.step r).1.Tidy limits) := by
  unfold Scan.step
  by_cases outside : (!s.query.inBounds r) = true
  · rw [if_pos outside]
    exact ⟨tidy.whole, fun _ => tidy⟩
  · rw [if_neg outside]
    have bounds : limits.hasSeed r.seed = true ∧ limits.hasDepth r.depth = true := by
      simpa [Query.inBounds, tidy.whole.bounds] using outside
    obtain ⟨whole, goes⟩ := tidy.enter bounds.1
    cases entered : s.enter r.seed with
    | mk middle complete =>
      rw [entered] at whole goes
      cases complete with
      | true => exact ⟨whole, by simp⟩
      | false =>
        obtain ⟨tidied, own⟩ := goes rfl
        by_cases lost : middle.scratch.abandoned = true
        · simp only [lost, if_true]
          exact ⟨tidied.whole, fun _ => tidied⟩
        · simp only [lost]
          have counted := tidied.whole.evaluate r
          have short := (middle.query.evaluate_isComplete r).trans tidied.short
          have taken := fun m => Query.evaluate_match (q := middle.query) (r := r) (m := m)
          cases evaluated : middle.query.evaluate r with
          | mk query result =>
            rw [evaluated] at counted short taken
            have still : ({ middle with query } : Scan).Tidy limits := ⟨counted, short, tidied.opened, tidied.latched⟩
            cases result with
            | error f => exact ⟨counted, by simp⟩
            | ok found =>
              cases found with
              | none => exact ⟨counted, fun _ => still⟩
              | some m =>
                obtain ⟨seed, depth⟩ := taken m rfl
                have recorded := still.record (own.trans (congrArg some seed.symm)) (depth ▸ bounds.2)
                exact ⟨recorded.whole, fun _ => recorded⟩

theorem run (tidy : s.Tidy limits) (rows : List Row) :
    (s.run rows).1.query.Whole limits ∧ ((s.run rows).2 = none → (s.run rows).1.Tidy limits) := by
  induction rows generalizing s with
  | nil => exact ⟨tidy.whole, fun _ => tidy⟩
  | cons r rest ih =>
    obtain ⟨whole, goes⟩ := tidy.step r
    cases stepped : s.step r with
    | mk after stop =>
      rw [stepped] at whole goes
      cases stop with
      | none => simpa [Scan.run, stepped] using ih (goes rfl)
      | some stop => simpa [Scan.run, stepped] using whole

end Tidy

end Scan

namespace Query

variable {limits : Limits} {q : Query}

theorem Whole.scan (whole : q.Whole limits) (short : q.isComplete = false) (feed : Feed Row) :
    (q.scan feed).query.Whole limits := by
  obtain ⟨broken, tidy⟩ := (Scan.Tidy.fresh whole short).run feed.items
  unfold Query.scan
  cases ran : ({ query := q.resetCounts } : Scan).run feed.items with
  | mk after stop =>
    rw [ran] at broken tidy
    match stop, feed.fault with
    | some .complete, _ => exact broken
    | some (.fault f), _ => exact broken
    | none, some f => exact broken
    | none, none => exact (tidy rfl).close

theorem Whole.scanFile (whole : q.Whole limits) (short : q.isComplete = false) (path : Path)
    (opened : Except Refusal (Feed Row)) : (q.scanFile path opened).query.Whole limits := by
  cases opened with
  | error refusal => exact whole
  | ok feed => exact whole.scan short feed

end Query

namespace Search

-- The queries that a search goes through: before its first file and behind each
-- one, behind every row of a file, and where its scan ends.
inductive Passes (read : Path → Except Refusal (Feed Row)) (stop : Bool) : Search → List Path → Query → Prop where
  | here : Passes read stop s paths s.query
  | row {feed : Feed Row} {before behind : List Row} (short : s.query.isComplete = false)
      (opened : read path = .ok feed) (split : feed.items = before ++ behind) :
      Passes read stop s (path :: rest) (Scan.run { query := s.query.resetCounts } before).1.query
  | ended (short : s.query.isComplete = false) :
      Passes read stop s (path :: rest) (s.query.scanFile path (read path)).query
  | later (goes : run read stop s [path] = (next, none)) (passes : Passes read stop next rest q) :
      Passes read stop s (path :: rest) q

variable {read : Path → Except Refusal (Feed Row)} {stop : Bool} {limits : Limits} {s next : Search}
  {path : Path} {paths rest : List Path} {q : Query}

theorem run_one (read : Path → Except Refusal (Feed Row)) (stop : Bool) (path : Path) (short : s.query.isComplete = false) :
    (run read stop s [path]).1.query = (s.query.scanFile path (read path)).query := by
  obtain ⟨next, ending, query, -, steps⟩ := run_cons_cases read stop path short
  rw [steps]
  cases ending with
  | none => exact query
  | some f => exact query

theorem run_passes (read : Path → Except Refusal (Feed Row)) (stop : Bool) (s : Search) (paths : List Path) :
    Passes read stop s paths (run read stop s paths).1.query := by
  induction paths generalizing s with
  | nil => exact .here
  | cons path rest ih =>
    cases short : s.query.isComplete with
    | true =>
      rw [run_complete short]
      exact .here
    | false =>
      have one := run_one read stop path short
      cases ran : run read stop s [path] with
      | mk next ending =>
        have split : run read stop s (path :: rest) = _ := run_append s [path] rest
        rw [split, ran]
        cases ending with
        | none => exact .later ran (ih next)
        | some f =>
          rw [ran] at one
          rw [show next.query = _ from one]
          exact .ended short

theorem Passes.whole (passes : Passes read stop s paths q) (whole : s.query.Whole limits) : q.Whole limits := by
  induction passes with
  | here => exact whole
  | row short opened split => exact ((Scan.Tidy.fresh whole short).run _).1
  | ended short => exact whole.scanFile short _ _
  | @later s path next rest q goes passes ih =>
    apply ih
    cases short : s.query.isComplete with
    | true =>
      rw [run_complete short] at goes
      cases goes
      exact whole
    | false =>
      have one := run_one read stop path short
      rw [goes] at one
      rw [show next.query = _ from one]
      exact whole.scanFile short _ _

theorem whole_fresh (possible : 0 ≤ limits.matchesMax) (criteria : List Criterion) :
    (fresh limits criteria).query.Whole limits :=
  ⟨rfl, possible, [], rfl, rfl, by simp⟩

-- Wherever a search is, it holds as many blocks of one seed as it has found, and
-- its report lists each of them once, unless two with the same seed meet.
theorem run_keeps_blocks {given : Limits.Given} (built : Limits.build given = .ok limits)
    (criteria : List Criterion) (read : Path → Except Refusal (Feed Row)) (stop : Bool) (paths : List Path) :
    (∀ q, Passes read stop (fresh limits criteria) paths q → q.Whole limits) ∧
    ∀ after, run read stop (fresh limits criteria) paths = (after, none) →
      (∀ verbosity, ∃ above, Report.matchText verbosity after.report.found =
        above ++ "\n" ++ Report.totalLine after.report.seeds.length) ∧
      after.report.seeds.length ≤ after.report.successes ∧
      ∀ blocks : List (List Match), after.report.found = blocks.flatten → blocks.length = after.report.successes →
        (∀ block ∈ blocks, Block limits block) →
        (after.report.seeds.length = after.report.successes ↔ blocks.IsChain Report.Apart) := by
  have whole : ∀ q, Passes read stop (fresh limits criteria) paths q → q.Whole limits := by
    intro q passes
    have possible : 1 ≤ limits.matchesMax := (Limits.matchesMax_bounds built).1
    exact passes.whole (whole_fresh (by omega) criteria)
  refine ⟨whole, ?_⟩
  intro after ran
  have last := run_passes read stop (fresh limits criteria) paths
  rw [ran] at last
  obtain ⟨blocks, results, count, all⟩ := (whole _ last).blocks
  have single : ∀ {blocks : List (List Match)}, (∀ block ∈ blocks, Block limits block) →
      ∀ block ∈ blocks, block ≠ [] ∧ ∃ seed, ∀ m ∈ block, m.seed = seed := by
    intro blocks all block member
    obtain ⟨full, seed, ofSeed⟩ := all block member
    exact ⟨full, seed, ofSeed.one⟩
  have found : after.report.found = after.query.results := rfl
  have successes : after.report.successes = after.query.successes := rfl
  refine ⟨Report.matchText_total after.report, ?_, ?_⟩
  · obtain ⟨bound, -⟩ := Report.length_seedsFrom none (single all)
    rw [successes, Report.seeds, found, results, ← count]
    exact Int.ofNat_le.mpr bound
  · intro others split length kinds
    obtain ⟨-, exactly⟩ := Report.length_seedsFrom none (single kinds)
    rw [← length, Report.seeds, split, Int.ofNat_inj, exactly]
    simp

-- The seed that ends the first file stands at the head of the second one as well,
-- which then breaks off inside another seed.
def twinShelf (path : Path) : Except Refusal (Feed Row) :=
  match path.parts with
  | [] => .ok { items := [goldRow 1 5, goldRow 2 5] }
  | _ => .ok { items := [goldRow 2 5, goldRow 3 5], fault := some (.decoding .missingMark) }

theorem run_keeps_twin_blocks :
    ∃ after, run twinShelf false (fresh {} fives) [{}, { parts := ["b"] }] = (after, none) ∧
      after.report.successes = 3 ∧ after.report.seeds = [1, 2] ∧
      ∃ above, Report.matchText 3 after.report.found = above ++ "\n" ++ Report.totalLine 2 := by
  obtain ⟨-, totals⟩ := run_keeps_blocks (rfl : Limits.build {} = .ok {}) fives twinShelf false
    [{}, { parts := ["b"] }]
  have facts : (run twinShelf false (fresh {} fives) [{}, { parts := ["b"] }]).2 = none ∧
      (run twinShelf false (fresh {} fives) [{}, { parts := ["b"] }]).1.report.successes = 3 ∧
      (run twinShelf false (fresh {} fives) [{}, { parts := ["b"] }]).1.report.seeds = [1, 2] := by decide +kernel
  cases ran : run twinShelf false (fresh {} fives) [{}, { parts := ["b"] }] with
  | mk after ending =>
    rw [ran] at facts
    obtain ⟨rfl, successes, seeds⟩ := facts
    obtain ⟨text, -⟩ := totals after ran
    have shown := text 3
    rw [seeds] at shown
    exact ⟨after, rfl, successes, seeds, shown⟩

end Search

end SeedSearch
