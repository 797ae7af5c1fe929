import Mathlib.Algebra.GroupWithZero.Nat
import SeedSearch.Proofs.Ahead
import SeedSearch.Proofs.Harvest
import SeedSearch.Proofs.Visits

namespace SeedSearch
open Catalog (Row)

def Limits.wanting (l : Limits) (wanted : Int) : Limits := { l with matchesMax := wanted }

def scanAlone (read : Path → Except Refusal (Feed Row)) (limits : Limits) (criteria : List Criterion)
    (wanted : Int) (path : Path) : Scan.Result :=
  (Query.ofCriteria (limits.wanting wanted) criteria).scanFile path (read path)

-- Each for as many seeds as those before it leave to be found.
def scansAlone (read : Path → Except Refusal (Feed Row)) (limits : Limits) (criteria : List Criterion)
    (wanted : Int) : List Path → List Scan.Result
  | [] => []
  | path :: rest =>
    scanAlone read limits criteria wanted path ::
      scansAlone read limits criteria (wanted - (scanAlone read limits criteria wanted path).query.successes) rest

namespace Scan.Result

def seedsOf (parts : List Scan.Result) : Nat := (parts.map (·.query.successes)).sum

@[simp] theorem seedsOf_one (part : Scan.Result) : seedsOf [part] = part.query.successes := by simp [seedsOf]

theorem seedsOf_cons (part : Scan.Result) (parts : List Scan.Result) :
    seedsOf (part :: parts) = part.query.successes + seedsOf parts := rfl

def matchesOf (parts : List Scan.Result) : List Match := parts.flatMap (·.query.results)

def failuresOf (paths : List Path) (parts : List Scan.Result) : List FileError :=
  (paths.zip parts).filterMap fun (path, part) => part.failure? path

theorem failuresOf_one (path : Path) (part : Scan.Result) :
    failuresOf [path] [part] = (part.failure? path).toList := by
  cases failed : part.failure? path <;> simp [failuresOf, failed]

end Scan.Result

open Scan.Result

-- A prefix of the files that finds enough seeds, while no shorter one does; all
-- of the files if they find too few.
structure Shortest (yield : List Path → Nat) (wanted : Int) (visited rest : List Path) : Prop where
  needed : ∀ before path behind, visited = before ++ path :: behind → yield before < wanted
  enough : rest ≠ [] → wanted ≤ yield visited

theorem Shortest.upto {yield : List Path → Nat} {wanted : Int} {before behind rest : List Path} {path : Path}
    (shortest : Shortest yield wanted (before ++ path :: behind) rest) :
    ∀ front x more, before ++ [path] = front ++ x :: more → (yield front : Int) < wanted := by
  intro front x more inner
  refine shortest.needed front x (more ++ behind) ?_
  rw [← List.singleton_append, ← List.append_assoc, inner]
  simp

theorem exists_shortest (yield : List Path → Nat) (wanted : Int) (paths : List Path) :
    ∃ visited rest, paths = visited ++ rest ∧ Shortest yield wanted visited rest := by
  induction paths using List.reverseRecOn with
  | nil => exact ⟨[], [], rfl, by simp, by simp⟩
  | append_singleton paths last ih =>
    obtain ⟨visited, rest, rfl, shortest⟩ := ih
    -- The last file is visited only if all those before it are and fall short.
    by_cases enough : wanted ≤ yield visited
    · exact ⟨visited, rest ++ [last], by simp, shortest.needed, fun _ => enough⟩
    · have all : rest = [] := by
        by_contra some
        exact enough (shortest.enough some)
      subst all
      refine ⟨visited ++ [last], [], by simp, ?_, by simp⟩
      intro before path behind split
      rcases List.eq_nil_or_concat' behind with rfl | ⟨front, x, rfl⟩
      · have whole : visited = before := List.append_inj_left' split rfl
        rw [← whole]
        omega
      · rw [← List.cons_append, ← List.append_assoc] at split
        exact shortest.needed before path front (List.append_inj_left' split rfl)

theorem Shortest.unique {yield : List Path → Nat} {wanted : Int} {visited rest others more : List Path}
    (shortest : Shortest yield wanted visited rest) (again : Shortest yield wanted others more)
    (same : visited ++ rest = others ++ more) : others = visited := by
  rcases List.append_eq_append_iff.mp same with ⟨between, rfl, behind⟩ | ⟨between, rfl, behind⟩
  · cases between with
    | nil => simp
    | cons path between =>
      have few := again.needed visited path between rfl
      have enough := shortest.enough (by simp [behind])
      omega
  · cases between with
    | nil => simp
    | cons path between =>
      have few := shortest.needed others path between rfl
      have enough := again.enough (by simp [behind])
      omega

theorem Shortest.of_take {yield : List Path → Nat} {wanted : Int} {paths : List Path} {n : Nat}
    (early : ∀ m < n, (yield (paths.take m) : Int) < wanted)
    (enough : n < paths.length → wanted ≤ yield (paths.take n)) :
    Shortest yield wanted (paths.take n) (paths.drop n) := by
  refine ⟨fun before path behind whole => ?_, fun some => enough (Nat.lt_of_not_le (mt List.drop_eq_nil_iff.mpr some))⟩
  have shorter : before.length < n := by
    have size := congrArg List.length whole
    simp only [List.length_take, List.length_append, List.length_cons] at size
    omega
  have front : paths.take before.length = before := by
    have cut := congrArg (List.take before.length) whole
    rwa [List.take_take, Nat.min_eq_left (Nat.le_of_lt shorter), List.take_left' rfl] at cut
  exact front ▸ early before.length shorter

variable {read other : Path → Except Refusal (Feed Row)} {limits : Limits} {criteria : List Criterion}
  {wanted : Int} {paths more : List Path} {path : Path} {stop : Bool} {s : Search}

theorem scansAlone_append : scansAlone read limits criteria wanted (paths ++ more) =
    scansAlone read limits criteria wanted paths ++
      scansAlone read limits criteria (wanted - seedsOf (scansAlone read limits criteria wanted paths)) more := by
  induction paths generalizing wanted with
  | nil => simp [scansAlone, seedsOf]
  | cons path rest ih =>
    simp only [List.cons_append, scansAlone, ih, seedsOf, List.map_cons, List.sum_cons]
    rw [Nat.cast_add, Int.sub_sub]

theorem Query.ofCriteria_criteria : (Query.ofCriteria limits criteria).criteria = criteria := by
  simp [Query.ofCriteria, Query.criteria, Function.comp_def]

structure Query.Seeks (limits : Limits) (criteria : List Criterion) (wanted : Int) (q : Query) : Prop where
  limits : q.limits = limits
  criteria : q.criteria = criteria
  missing : q.target = q.successes + wanted

namespace Search

-- Each of the files adds what its own scan comes to.
structure Gathers (s : Search) (paths : List Path) (parts : List Scan.Result) (after : Search) : Prop where
  limits : after.query.limits = s.query.limits
  criteria : after.query.criteria = s.query.criteria
  successes : after.query.successes = s.query.successes + seedsOf parts
  results : after.query.results = s.query.results ++ matchesOf parts
  visited : after.visited = s.visited + paths.length
  errors : after.errors = s.errors ++ failuresOf paths parts

theorem Gathers.trans {before behind : List Path} {parts others : List Scan.Result} {middle after : Search}
    (first : Gathers s before parts middle) (second : Gathers middle behind others after)
    (aligned : before.length = parts.length) : Gathers s (before ++ behind) (parts ++ others) after := by
  refine ⟨second.limits.trans first.limits, second.criteria.trans first.criteria, ?_, ?_, ?_, ?_⟩
  · rw [second.successes, first.successes, seedsOf, seedsOf, seedsOf, List.map_append, List.sum_append, Nat.add_assoc]
  · rw [second.results, first.results, matchesOf, matchesOf, matchesOf, List.flatMap_append, List.append_assoc]
  · rw [second.visited, first.visited, List.length_append, Nat.add_assoc]
  · rw [second.errors, first.errors, failuresOf, failuresOf, failuresOf, List.zip_append aligned,
      List.filterMap_append, List.append_assoc]

theorem Gathers.seeks {parts : List Scan.Result} {after : Search} (gathers : Gathers s paths parts after)
    (seeks : s.query.Seeks limits criteria wanted) : after.query.Seeks limits criteria (wanted - seedsOf parts) := by
  refine ⟨gathers.limits.trans seeks.limits, gathers.criteria.trans seeks.criteria, ?_⟩
  have missing := seeks.missing
  rw [Query.target] at missing ⊢
  rw [gathers.limits, gathers.successes, Nat.cast_add]
  omega

-- The shared query scans a file as a fresh one for what is missing would.
theorem ahead_alone (read : Path → Except Refusal (Feed Row)) (path : Path)
    (seeks : s.query.Seeks limits criteria wanted) :
    Query.Ahead s.query.results s.query.successes
      (scanAlone read limits criteria wanted path).query (s.query.scanFile path (read path)).query ∧
    (s.query.scanFile path (read path)).committed = (scanAlone read limits criteria wanted path).committed := by
  obtain ⟨rfl, rfl, missing⟩ := seeks
  have start : Query.Ahead s.query.results s.query.successes
      (.ofCriteria (s.query.limits.wanting wanted) s.query.criteria) s.query := by
    exact ⟨rfl, Query.ofCriteria_criteria.symm, missing, rfl, by simp [Query.ofCriteria]⟩
  exact start.scanFile path (read path)

theorem gathers_one {next : Search} (seeks : s.query.Seeks limits criteria wanted)
    (query : next.query = (s.query.scanFile path (read path)).query) (visited : next.visited = s.visited + 1)
    (errors : next.errors = s.errors ++ ((s.query.scanFile path (read path)).failure? path).toList) :
    Gathers s [path] [scanAlone read limits criteria wanted path] next := by
  obtain ⟨ahead, committed⟩ := ahead_alone read path seeks
  obtain ⟨limits, criteria⟩ := s.query.scanFile_frame path (read path)
  refine ⟨query ▸ limits, query ▸ criteria, ?_, ?_, visited, ?_⟩
  · simp [query, ahead.successes, seedsOf]
  · simp [query, ahead.results, matchesOf]
  · rw [errors, failuresOf_one, Scan.Result.failure?, Scan.Result.failure?, committed]

theorem run_gathers (seeks : s.query.Seeks limits criteria wanted)
    (short : ∀ before path behind, paths = before ++ path :: behind →
      (seedsOf (scansAlone read limits criteria wanted before) : Int) < wanted)
    (goes : ∀ part ∈ scansAlone read limits criteria wanted paths,
      ∀ f, part.committed = .error f → ¬ f.Ends stop) :
    ∃ after, run read stop s paths = (after, none) ∧
      Gathers s paths (scansAlone read limits criteria wanted paths) after := by
  induction paths generalizing s wanted with
  | nil => exact ⟨s, rfl, rfl, rfl, rfl, by simp [matchesOf, scansAlone], rfl, by simp [failuresOf]⟩
  | cons path rest ih =>
    have unfinished : s.query.isComplete = false := by
      have wants : 0 < wanted := by simpa [scansAlone, seedsOf] using short [] path rest rfl
      simp only [Query.isComplete, decide_eq_false_iff_not, seeks.missing]
      omega
    obtain ⟨-, committed⟩ := ahead_alone read path seeks
    have goesOn : ∀ f, (s.query.scanFile path (read path)).committed = .error f → ¬ f.Ends stop :=
      fun f failed => goes _ (by simp [scansAlone]) f (committed ▸ failed)
    obtain ⟨next, steps, query, visited, errors⟩ := run_cons_goes unfinished goesOn
    have one := gathers_one seeks query visited errors
    obtain ⟨after, ran, others⟩ := ih (one.seeks seeks)
      (by
        intro before x behind split
        have needs := short (path :: before) x behind (by simp [split])
        rw [scansAlone, seedsOf_cons, Nat.cast_add] at needs
        rw [seedsOf_one]
        omega)
      (by
        rw [seedsOf_one]
        exact fun other member => goes other (List.mem_cons_of_mem _ member))
    rw [seedsOf_one] at others
    exact ⟨after, (steps rest).trans ran, one.trans others rfl⟩

abbrev apart (read : Path → Except Refusal (Feed Row)) (limits : Limits) (criteria : List Criterion)
    (files : List Path) : List Scan.Result :=
  scansAlone read limits criteria limits.matchesMax files

theorem seeks_fresh : (fresh limits criteria).query.Seeks limits criteria limits.matchesMax := by
  refine ⟨rfl, Query.ofCriteria_criteria, ?_⟩
  simp [fresh, Query.ofCriteria, Query.target]

theorem Gathers.rest {parts : List Scan.Result} {after : Search} {rest : List Path}
    (gathers : Gathers s paths parts after) (seeks : s.query.Seeks limits criteria wanted)
    (enough : rest ≠ [] → wanted ≤ seedsOf parts) : run read stop after rest = (after, none) := by
  by_cases none : rest = []
  · rw [none]
    rfl
  · apply run_complete
    have missing := (gathers.seeks seeks).missing
    have found := enough none
    simp only [Query.isComplete, decide_eq_true_eq]
    omega

theorem run_ends {before : List Path} {f : Fault} (seeks : s.query.Seeks limits criteria wanted)
    (short : ∀ front x behind, before ++ [path] = front ++ x :: behind →
      (seedsOf (scansAlone read limits criteria wanted front) : Int) < wanted)
    (goes : ∀ part ∈ scansAlone read limits criteria wanted before,
      ∀ f, part.committed = .error f → ¬ f.Ends stop)
    (failed : (scanAlone read limits criteria
      (wanted - seedsOf (scansAlone read limits criteria wanted before)) path).committed = .error f)
    (ends : f.Ends stop) :
    ∃ after, (∀ later, run read stop s (before ++ path :: later) = (after, some (f.inFile path))) ∧
      after.visited = s.visited + (before.length + 1) ∧
      after.query.successes = s.query.successes + seedsOf (scansAlone read limits criteria wanted (before ++ [path])) ∧
      after.query.results = s.query.results ++ matchesOf (scansAlone read limits criteria wanted (before ++ [path])) := by
  have needed : ∀ front x behind, before = front ++ x :: behind →
      (seedsOf (scansAlone read limits criteria wanted front) : Int) < wanted :=
    fun front x behind split => short front x (behind ++ [path]) (by simp [split])
  obtain ⟨middle, ran, gathers⟩ := run_gathers seeks needed goes
  have left := gathers.seeks seeks
  obtain ⟨ahead, committed⟩ := ahead_alone read path left
  have unfinished : middle.query.isComplete = false := by
    have wants := short before path [] rfl
    simp only [Query.isComplete, decide_eq_false_iff_not, left.missing]
    omega
  obtain ⟨after, ended, query, visited⟩ := run_cons_ends unfinished (committed.trans failed) ends
  refine ⟨after, fun later => by rw [run_append, ran]; exact ended later, ?_, ?_, ?_⟩
  · rw [visited, gathers.visited, Nat.add_assoc]
  · rw [query, ahead.successes, gathers.successes, scansAlone_append]
    simp [seedsOf, scansAlone, Nat.add_assoc]
  · rw [query, ahead.results, gathers.results, scansAlone_append]
    simp [matchesOf, scansAlone]

theorem first_end (read : Path → Except Refusal (Feed Row)) (limits : Limits) (criteria : List Criterion)
    (wanted : Int) (stop : Bool) (files : List Path) :
    (∀ part ∈ scansAlone read limits criteria wanted files, ∀ f, part.committed = .error f → ¬ f.Ends stop) ∨
    ∃ before path behind f, files = before ++ path :: behind ∧
      (∀ part ∈ scansAlone read limits criteria wanted before, ∀ f, part.committed = .error f → ¬ f.Ends stop) ∧
      (scanAlone read limits criteria
        (wanted - seedsOf (scansAlone read limits criteria wanted before)) path).committed = .error f ∧
      f.Ends stop := by
  induction files using List.reverseRecOn with
  | nil => exact Or.inl (by simp [scansAlone])
  | append_singleton files last ih =>
    rcases ih with goes | ⟨before, path, behind, f, rfl, goes, failed, ends⟩
    · by_cases ended : ∃ f, (scanAlone read limits criteria
        (wanted - seedsOf (scansAlone read limits criteria wanted files)) last).committed = .error f ∧ f.Ends stop
      · obtain ⟨f, failed, ends⟩ := ended
        exact Or.inr ⟨files, last, [], f, rfl, goes, failed, ends⟩
      · refine Or.inl fun part member f failed ends => ?_
        rw [scansAlone_append] at member
        rcases List.mem_append.mp member with earlier | here
        · exact goes part earlier f failed ends
        · rw [scansAlone, scansAlone, List.mem_singleton] at here
          exact ended ⟨f, here ▸ failed, ends⟩
    · exact Or.inr ⟨before, path, behind ++ [last], f, by simp, goes, failed, ends⟩

theorem run_shortest {visited rest : List Path}
    (shortest : Shortest (fun files => seedsOf (apart read limits criteria files)) limits.matchesMax visited rest)
    (goes : ∀ part ∈ apart read limits criteria visited, ∀ f, part.committed = .error f → ¬ f.Ends stop) :
    ∃ after, Gathers (fresh limits criteria) visited (apart read limits criteria visited) after ∧
      ∀ other, (∀ path ∈ visited, other path = read path) →
        run other stop (fresh limits criteria) (visited ++ rest) = (after, none) := by
  obtain ⟨after, ran, gathers⟩ := run_gathers seeks_fresh shortest.needed goes
  refine ⟨after, gathers, ?_⟩
  intro other same
  rw [run_append, run_congr same, ran]
  exact gathers.rest seeks_fresh shortest.enough

theorem run_ended {visited rest : List Path} {after : Search} {f : Fault}
    (shortest : Shortest (fun files => seedsOf (apart read limits criteria files)) limits.matchesMax visited rest)
    (ended : run read stop (fresh limits criteria) (visited ++ rest) = (after, some f)) :
    ∃ path ∈ visited, ∃ left g, (scanAlone read limits criteria left path).committed = .error g ∧ g.Ends stop ∧
      f = g.inFile path := by
  rcases first_end read limits criteria limits.matchesMax stop visited with
    goes | ⟨before, path, behind, g, rfl, goes, failed, ends⟩
  · obtain ⟨last, -, ran⟩ := run_shortest shortest goes
    cases (ran read fun _ _ => rfl).symm.trans ended
  · obtain ⟨last, stops, -⟩ := run_ends seeks_fresh shortest.upto goes failed ends
    have out := (stops (behind ++ rest)).symm.trans (by simpa using ended)
    exact ⟨path, by simp, _, g, failed, ends, (Option.some.inj (Prod.mk.inj out).2).symm⟩

-- Files do not get in each other's way. Those visited are the fewest that find
-- enough, and each adds what it finds alone when searched for what is missing,
-- whatever went wrong before it.
theorem run_isolates_files (read : Path → Except Refusal (Feed Row)) (limits : Limits)
    (criteria : List Criterion) (paths : List Path) :
    ∃ visited rest, paths = visited ++ rest ∧
      Shortest (fun files => seedsOf (apart read limits criteria files)) limits.matchesMax visited rest ∧
      (∀ stop, (∀ part ∈ apart read limits criteria visited,
          ∀ f, part.committed = .error f → stop = false ∧ f.ofInput = true) →
        ∃ after,
          (∀ other, (∀ path ∈ visited, other path = read path) →
            run other stop (fresh limits criteria) paths = (after, none)) ∧
          after.report = {
            target := limits.matchesMax
            found := matchesOf (apart read limits criteria visited)
            successes := seedsOf (apart read limits criteria visited)
            filesScanned := visited.length
            errors := failuresOf visited (apart read limits criteria visited) }) ∧
      ∀ before path behind f, visited = before ++ path :: behind →
        (∀ part ∈ apart read limits criteria before, ∃ n, part.committed = .ok n) →
        (scanAlone read limits criteria (limits.matchesMax -
          seedsOf (apart read limits criteria before)) path).committed = .error f →
        ∃ after,
          (∀ other later, (∀ x ∈ before ++ [path], other x = read x) →
            run other true (fresh limits criteria) (before ++ path :: later) = (after, some (f.inFile path))) ∧
          after.visited = before.length + 1 ∧
          after.query.successes = seedsOf (apart read limits criteria (before ++ [path])) ∧
          after.query.results = matchesOf (apart read limits criteria (before ++ [path])) := by
  obtain ⟨visited, rest, rfl, shortest⟩ := exists_shortest
    (fun files => seedsOf (apart read limits criteria files)) limits.matchesMax paths
  refine ⟨visited, rest, rfl, shortest, ?_, ?_⟩
  · intro stop tolerable
    have goes : ∀ part ∈ apart read limits criteria visited,
        ∀ f, part.committed = .error f → ¬ f.Ends stop := by
      intro part member f failed
      obtain ⟨forgiving, input⟩ := tolerable part member f failed
      simp [Fault.Ends, forgiving, input]
    obtain ⟨after, gathers, ran⟩ := run_shortest shortest goes
    refine ⟨after, ran, ?_⟩
    rw [report, Query.target, gathers.limits, gathers.results, gathers.successes, gathers.visited, gathers.errors]
    simp [fresh, Query.ofCriteria]
  · rintro before path behind f rfl sound failed
    have goes : ∀ part ∈ apart read limits criteria before,
        ∀ f, part.committed = .error f → ¬ f.Ends true := by
      intro part member f broken
      obtain ⟨n, fine⟩ := sound part member
      rw [fine] at broken
      cases broken
    obtain ⟨after, ended, count, successes, results⟩ := run_ends seeks_fresh shortest.upto goes failed (Or.inl rfl)
    refine ⟨after, ?_, by simpa [fresh] using count, by simpa [fresh, Query.ofCriteria] using successes,
      by simpa [fresh, Query.ofCriteria] using results⟩
    intro other later same
    have whole : before ++ path :: later = (before ++ [path]) ++ later := by simp
    rw [whole, run_append, run_congr same, ended []]

-- The first file breaks off while its second seed is open and satisfied, the
-- second cannot be opened, the third holds the seed that was lost, and the last
-- comes too late.
def brokenShelf (path : Path) : Except Refusal (Feed Row) :=
  match path.parts with
  | [] => .ok { items := [goldRow 1 5, goldRow 2 5], fault := some (.decoding .missingMark) }
  | [_] => .error .missing
  | _ => .ok { items := [goldRow 2 5, goldRow 3 5] }

def brokenPaths : List Path := [{}, { parts := ["b"] }, { parts := ["c", "d"] }, { parts := ["e", "f"] }]

def fives : List Criterion := [{ category := .gold, mode := .equalTo, target := 5 }]

def fiveOf (seed : Int) : Match where
  seed := seed
  depth := 1
  object := ⟨.gold, "gold pieces", .gold 5 1⟩
  outcome := .increment

theorem run_isolates_broken_files :
    ∃ after cut,
      run brokenShelf false (fresh { matchesMax := 2 } fives) brokenPaths = (after, none) ∧
      after.report = {
        target := 2, found := [fiveOf 1, fiveOf 2], successes := 2, filesScanned := 3
        errors := [⟨{}, "UnicodeError", "UTF-16 stream does not start with BOM"⟩,
          ⟨{ parts := ["b"] }, "FileNotFoundError", "[Errno 2] No such file or directory: 'b'"⟩] } ∧
      run brokenShelf true (fresh { matchesMax := 2 } fives) brokenPaths = (cut, some (.decoding .missingMark)) ∧
      cut.visited = 1 ∧ cut.query.successes = 1 ∧ cut.query.results = [fiveOf 1] := by
  obtain ⟨visited, rest, split, shortest, tolerates, stops⟩ :=
    run_isolates_files brokenShelf { matchesMax := 2 } fives brokenPaths
  have three : Shortest (fun files => seedsOf (apart brokenShelf { matchesMax := 2 } fives files)) 2
      (brokenPaths.take 3) (brokenPaths.drop 3) := .of_take (by decide +kernel) fun _ => by decide +kernel
  have whole : brokenPaths.take 3 ++ brokenPaths.drop 3 = visited ++ rest := split
  have same : visited = brokenPaths.take 3 := three.unique shortest whole
  subst same
  have committed : (apart brokenShelf { matchesMax := 2 } fives (brokenPaths.take 3)).map (·.committed) =
      [.error (.decoding .missingMark), .error (.access .missing { parts := ["b"] }), .ok 1] := by decide +kernel
  have input : ∀ part ∈ apart brokenShelf { matchesMax := 2 } fives (brokenPaths.take 3),
      ∀ f, part.committed = .error f → false = false ∧ f.ofInput = true := by
    intro part member f failed
    have listed := List.mem_map_of_mem (f := fun part => part.committed) member
    rw [committed, failed] at listed
    simp only [List.mem_cons, List.not_mem_nil, or_false, Except.error.injEq, reduceCtorEq] at listed
    rcases listed with rfl | rfl
    · exact ⟨rfl, rfl⟩
    · exact ⟨rfl, rfl⟩
  obtain ⟨after, ran, report⟩ := tolerates false input
  have first := stops [] {} [{ parts := ["b"] }, { parts := ["c", "d"] }] (.decoding .missingMark) rfl
  obtain ⟨cut, ended, one, successes, results⟩ := first (fun _ member => nomatch member) (by decide +kernel)
  refine ⟨after, cut, ran brokenShelf fun _ _ => rfl, report.trans (by decide +kernel),
    ended brokenShelf brokenPaths.tail fun _ _ => rfl, one, successes.trans (by decide +kernel),
    results.trans (by decide +kernel)⟩

end Search

end SeedSearch
