import SeedSearch.Proofs.Sweep
import SeedSearch.Search

namespace SeedSearch
open Catalog (Row)

namespace Fault

theorem ofInput_inFile (f : Fault) (path : Path) : (f.inFile path).ofInput = f.ofInput := by
  cases f <;> rfl

-- A fault ends the search if it is none of the input, or if the search is to
-- stop at the first one.
def Ends (stop : Bool) (f : Fault) : Prop := stop = true ∨ f.ofInput = false

end Fault

def FileError.of (path : Path) (f : Fault) : FileError :=
  ⟨path, (f.inFile path).kind, (f.inFile path).message⟩

def Scan.Result.failure? (path : Path) (result : Scan.Result) : Option FileError :=
  match result.committed with
  | .ok _ => none
  | .error f => some (.of path f)

namespace Search

def fresh (limits : Limits) (criteria : List Criterion) : Search := { query := .ofCriteria limits criteria }

variable {read other : Path → Except Refusal (Feed Row)} {stop : Bool} {s : Search} {path : Path}
  {paths : List Path} {f : Fault}

theorem run_complete (complete : s.query.isComplete = true) : run read stop s paths = (s, none) := by
  cases paths <;> simp [run, complete]

-- A file that does not end the search is counted, its scan kept, and its fault
-- recorded if it has one.
theorem run_cons_goes (short : s.query.isComplete = false)
    (goes : ∀ f, (s.query.scanFile path (read path)).committed = .error f → ¬ f.Ends stop) :
    ∃ next, (∀ more, run read stop s (path :: more) = run read stop next more) ∧
      next.query = (s.query.scanFile path (read path)).query ∧ next.visited = s.visited + 1 ∧
      next.errors = s.errors ++ ((s.query.scanFile path (read path)).failure? path).toList := by
  cases closed : (s.query.scanFile path (read path)).committed with
  | ok n =>
    refine ⟨_, fun more => by simp only [run, short, closed]; rfl, rfl, rfl, ?_⟩
    simp [remark, Scan.Result.failure?, closed]
  | error f =>
    obtain ⟨forgiving, input⟩ := not_or.mp (goes f closed)
    simp only [Bool.not_eq_true] at forgiving
    simp only [Bool.not_eq_false] at input
    refine ⟨_, fun more => by simp only [run, short, closed, Fault.ofInput_inFile, input, forgiving]; rfl, rfl, rfl, ?_⟩
    simp [remark, fail, Scan.Result.failure?, closed, FileError.of]

theorem run_cons_ends (short : s.query.isComplete = false)
    (failed : (s.query.scanFile path (read path)).committed = .error f) (ends : f.Ends stop) :
    ∃ after, (∀ more, run read stop s (path :: more) = (after, some (f.inFile path))) ∧
      after.query = (s.query.scanFile path (read path)).query ∧ after.visited = s.visited + 1 := by
  cases input : f.ofInput with
  | true =>
    have stops : stop = true := by simpa [Fault.Ends, input] using ends
    exact ⟨_, fun more => by simp only [run, short, failed, Fault.ofInput_inFile, input, stops]; rfl, rfl, rfl⟩
  | false =>
    exact ⟨_, fun more => by simp only [run, short, failed, Fault.ofInput_inFile, input]; rfl, rfl, rfl⟩

theorem run_cons_cases (read : Path → Except Refusal (Feed Row)) (stop : Bool) (path : Path)
    (short : s.query.isComplete = false) :
    ∃ next ending, next.query = (s.query.scanFile path (read path)).query ∧ next.visited = s.visited + 1 ∧
      ∀ more, run read stop s (path :: more) =
        match ending with
        | none => run read stop next more
        | some f => (next, some f) := by
  by_cases goes : ∀ f, (s.query.scanFile path (read path)).committed = .error f → ¬ f.Ends stop
  · obtain ⟨next, steps, query, visited, -⟩ := run_cons_goes short goes
    exact ⟨next, none, query, visited, steps⟩
  · simp only [not_forall, not_not] at goes
    obtain ⟨f, failed, ends⟩ := goes
    obtain ⟨after, ended, query, visited⟩ := run_cons_ends short failed ends
    exact ⟨after, some (f.inFile path), query, visited, ended⟩

theorem run_append (s : Search) (paths more : List Path) : run read stop s (paths ++ more) =
    match run read stop s paths with
    | (after, none) => run read stop after more
    | (after, some f) => (after, some f) := by
  induction paths generalizing s with
  | nil => rfl
  | cons path rest ih =>
    rw [List.cons_append]
    cases short : s.query.isComplete with
    | true => simp only [run_complete short]
    | false =>
      obtain ⟨next, ending, -, -, steps⟩ := run_cons_cases read stop path short
      rw [steps, steps]
      cases ending with
      | none => exact ih next
      | some f => rfl

theorem run_keeps {P : Query → Prop} (kept : ∀ q, ∀ path ∈ paths, P q → P (q.scanFile path (read path)).query)
    (start : P s.query) : P (run read stop s paths).1.query := by
  induction paths generalizing s with
  | nil => exact start
  | cons path rest ih =>
    cases short : s.query.isComplete with
    | true => simpa only [run_complete short] using start
    | false =>
      obtain ⟨next, ending, query, -, steps⟩ := run_cons_cases read stop path short
      have scanned : P next.query := query ▸ kept s.query path List.mem_cons_self start
      rw [steps]
      cases ending with
      | none => exact ih (fun q x member => kept q x (List.mem_cons_of_mem _ member)) scanned
      | some f => exact scanned

theorem visited_le (read : Path → Except Refusal (Feed Row)) (stop : Bool) (s : Search) (paths : List Path) :
    (run read stop s paths).1.visited ≤ s.visited + paths.length := by
  induction paths generalizing s with
  | nil => exact Nat.le_refl _
  | cons path rest ih =>
    cases short : s.query.isComplete with
    | true =>
      rw [run_complete short]
      exact Nat.le_add_right _ _
    | false =>
      obtain ⟨next, ending, -, visited, steps⟩ := run_cons_cases read stop path short
      rw [steps, List.length_cons]
      cases ending with
      | none =>
        have later := ih next
        simp only
        omega
      | some f =>
        simp only
        omega

theorem run_congr (same : ∀ path ∈ paths, other path = read path) :
    run other stop s paths = run read stop s paths := by
  induction paths generalizing s with
  | nil => rfl
  | cons path rest ih =>
    have later : ∀ s, run other stop s rest = run read stop s rest :=
      fun s => ih fun x member => same x (List.mem_cons_of_mem _ member)
    simp only [run, same path List.mem_cons_self, later]

end Search

end SeedSearch
