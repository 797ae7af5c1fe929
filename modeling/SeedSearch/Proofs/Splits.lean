import SeedSearch.Proofs.Ahead
import SeedSearch.Proofs.Interruption
import SeedSearch.Proofs.Visits

namespace SeedSearch
open Catalog (Row)
open Criterion

theorem seedRuns_split {files : List (List Row)} (full : ∀ rows ∈ files, rows ≠ [])
    (separate : files.IsChain fun a b => ∀ x ∈ a.getLast?, ∀ y ∈ b.head?, x.seed ≠ y.seed) :
    seedRuns files.flatten = files.flatMap seedRuns := by
  induction files with
  | nil => rfl
  | cons rows rest ih =>
    have border : ∀ x ∈ rows.getLast?, ∀ y ∈ rest.flatten.head?, (x.seed == y.seed) = false := by
      intro x last y first
      cases rest with
      | nil => simp at first
      | cons next others =>
        obtain ⟨z, more, rfl⟩ := List.exists_cons_of_ne_nil (full next (by simp))
        have apart := (List.isChain_cons_cons.mp separate).1 x last y (by simpa using first)
        simpa using apart
    rw [List.flatten_cons, List.flatMap_cons, ← ih (fun x member => full x (by simp [member])) separate.tail]
    exact List.splitBy_append border

namespace Query

variable {q : Query} {files : List (List Row)} {front rest : List (List Row)}

-- No seed goes on from one file into the next, files without a row in bounds
-- left aside.
def Separate (q : Query) (files : List (List Row)) : Prop :=
  ((files.map (·.filter q.inBounds)).filter (!·.isEmpty)).IsChain
    fun a b => ∀ x ∈ a.getLast?, ∀ y ∈ b.head?, x.seed ≠ y.seed

theorem runs_flatten (separate : q.Separate files) : q.runs files.flatten = files.flatMap q.runs := by
  have full : ∀ rows ∈ (files.map (·.filter q.inBounds)).filter (!·.isEmpty), rows ≠ [] := by
    intro rows member
    simpa using (List.mem_filter.mp member).2
  have split := seedRuns_split full separate
  rw [List.flatten_filter_not_isEmpty] at split
  rw [runs, List.filter_flatten, split]
  clear separate full split
  induction files with
  | nil => rfl
  | cons rows rest ih =>
    rw [List.map_cons, List.flatMap_cons, ← ih, runs]
    cases inside : rows.filter q.inBounds with
    | nil => rfl
    | cons r more => rfl

theorem sweep_append (sound : ∀ run ∈ front, faultIn q.criteria run = none) (short : q.isComplete = false) :
    q.sweep none (front ++ rest) =
      if (q.sweep none front).1.isComplete then ((q.sweep none front).1, none)
      else (q.sweep none front).1.sweep none rest := by
  cases rest with
  | nil =>
    have ended : q.sweep none front = ((q.sweep none front).1, none) :=
      Prod.ext rfl (sweep_none sound).1
    simp only [List.append_nil, sweep, ite_self]
    exact ended
  | cons run more => exact sweep_front sound short

end Query

namespace Search

variable {read : Path → Except Refusal (Feed Row)} {stop : Bool} {s : Search} {path : Path} {paths : List Path}
  {rows : List Row} {files : List (List Row)} {q : Query}

theorem run_cons_sweeps (short : s.query.isComplete = false) (opened : read path = .ok { items := rows })
    (sound : ∀ run ∈ s.query.runs rows, faultIn s.query.criteria run = none) :
    ∃ next, (∀ more, run read stop s (path :: more) = run read stop next more) ∧
      next.query.Alike (s.query.sweep none (s.query.runs rows)).1 := by
  obtain ⟨frame, committed⟩ := s.query.scan_agrees rows none
  rw [(Query.sweep_none sound).1] at committed
  have goes : ∀ f, (s.query.scanFile path (read path)).committed = .error f → ¬ f.Ends stop := by
    intro f failed
    rw [opened, Query.scanFile, committed] at failed
    cases failed
  obtain ⟨next, steps, query, -⟩ := run_cons_goes short goes
  rw [opened] at query
  exact ⟨next, steps, query ▸ frame⟩

-- A search over sound files is one sweep over the seeds of all of them.
theorem run_sweeps (s : Search) (stop : Bool)
    (readable : List.Forall₂ (fun path rows => read path = .ok { items := rows }) paths files)
    (sound : ∀ rows ∈ files, ∀ run ∈ s.query.runs rows, faultIn s.query.criteria run = none)
    (short : s.query.isComplete = false) :
    ∃ after, run read stop s paths = (after, none) ∧
      Query.Ahead [] 0 (s.query.sweep none (files.flatMap s.query.runs)).1 after.query := by
  induction readable generalizing s with
  | nil => exact ⟨s, rfl, .of_same rfl⟩
  | cons opened others ih =>
    rename_i path rows paths files
    have here : ∀ run ∈ s.query.runs rows, faultIn s.query.criteria run = none := sound rows (by simp)
    obtain ⟨next, steps, frame⟩ := run_cons_sweeps short opened here
    obtain ⟨limits, criteria, -, -⟩ := Query.alike_iff.mp frame
    rw [steps, List.flatMap_cons, Query.sweep_append here short, ← frame.isComplete]
    cases complete : next.query.isComplete with
    | true => exact ⟨next, run_complete complete, .of_same frame⟩
    | false =>
      have runs : next.query.runs = s.query.runs := by
        funext rows
        rw [Query.runs, Query.runs, Query.inBounds_of_limits (limits.trans Query.sweep_frame.1)]
      have later : ∀ rows ∈ files, ∀ run ∈ next.query.runs rows, faultIn next.query.criteria run = none := by
        rw [runs, criteria, Query.sweep_frame.2]
        exact fun rows member => sound rows (by simp [member])
      obtain ⟨after, ran, ahead⟩ := ih next later complete
      obtain ⟨swept, -⟩ := (Query.Ahead.of_same frame).sweep none (files.flatMap s.query.runs)
      rw [runs] at ahead
      exact ⟨after, ran, swept.trans ahead⟩

-- Where no seed goes on from one file into the next, it does not matter how the
-- rows are divided into files.
theorem run_over_splits (q : Query) (read : Path → Except Refusal (Feed Row)) (stop : Bool) (paths : List Path)
    (files : List (List Row))
    (readable : List.Forall₂ (fun path rows => read path = .ok { items := rows }) paths files)
    (short : (q.successes : Int) < q.target)
    (known : ∀ r ∈ files.flatten, q.inBounds r = true → (∃ c ∈ q.criteria, c.accepts r = true) →
      ∃ o, r.object = .ok o)
    (separate : q.Separate files) :
    ∃ after n, run read stop { query := q } paths = (after, none) ∧
      (q.scan { items := files.flatten }).committed = .ok n ∧
      after.query.results = (q.scan { items := files.flatten }).query.results ∧
      after.query.successes = (q.scan { items := files.flatten }).query.successes := by
  have unfinished : q.isComplete = false := by simpa [Query.isComplete] using short
  have sound : ∀ rows ∈ files, ∀ run ∈ q.runs rows, faultIn q.criteria run = none := by
    intro rows member run inside
    apply faultIn_of_known
    intro r here takes
    obtain ⟨within, bounds⟩ := mem_runs inside here
    exact known r (List.mem_flatten.mpr ⟨rows, member, within⟩) bounds (taker_isSome.mp takes)
  obtain ⟨after, ran, ahead⟩ := run_sweeps { query := q } stop readable sound unfinished
  obtain ⟨frame, committed⟩ := q.scan_agrees files.flatten none
  rw [Query.runs_flatten separate] at frame committed
  have closes : (q.sweep none (files.flatMap q.runs)).2 = none := by
    apply (Query.sweep_none _).1
    intro run member
    obtain ⟨rows, inside, here⟩ := List.mem_flatMap.mp member
    exact sound rows inside run here
  rw [closes] at committed
  obtain ⟨-, -, successes, results⟩ := Query.alike_iff.mp frame
  refine ⟨after, _, ran, committed, ?_, ?_⟩
  · rw [results, ahead.results, List.nil_append]
  · rw [successes, ahead.successes, Nat.zero_add]

-- Four rows in bounds, in two files with one between them that has none.
def threeFiles : List (List Row) :=
  [[goldRow 1 7, goldRow 2 5], [{ goldRow 2 5 with depth := 40 }], [goldRow 3 5, goldRow 4 5]]

def shelf (path : Path) : Except Refusal (Feed Row) :=
  match threeFiles[path.parts.length]? with
  | some rows => .ok { items := rows }
  | none => .error .missing

theorem run_over_three_files :
    goldPair.Separate threeFiles ∧ (goldPair.successes : Int) < goldPair.target ∧
    ∃ after n, run shelf false { query := goldPair } [{}, { parts := ["b"] }, { parts := ["c", "d"] }] = (after, none) ∧
      (goldPair.scan { items := threeFiles.flatten }).committed = .ok n ∧
      after.query.results = (goldPair.scan { items := threeFiles.flatten }).query.results ∧
      after.query.successes = (goldPair.scan { items := threeFiles.flatten }).query.successes := by
  have separate : goldPair.Separate threeFiles := by
    unfold Query.Separate
    decide +kernel
  have short : (goldPair.successes : Int) < goldPair.target := by decide
  have objects : ∀ r ∈ threeFiles.flatten, r.object = .ok ⟨.gold, "gold pieces", .gold r.quantity 1⟩ := by
    decide +kernel
  have readable : List.Forall₂ (fun path rows => shelf path = .ok { items := rows })
      [{}, { parts := ["b"] }, { parts := ["c", "d"] }] threeFiles :=
    .cons rfl (.cons rfl (.cons rfl .nil))
  exact ⟨separate, short, run_over_splits goldPair shelf false _ _ readable short
    (fun r member _ _ => ⟨_, objects r member⟩) separate⟩

end Search

end SeedSearch
