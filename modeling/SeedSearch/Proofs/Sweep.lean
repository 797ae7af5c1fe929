import SeedSearch.Proofs.SeedRuns
import SeedSearch.Proofs.SeedScan

namespace SeedSearch
open Catalog (Row)
open Criterion

namespace Query

def reap (q : Query) (run : List Row) : Query :=
  if Kept q.criteria run then
    { q with results := q.results ++ found q.criteria run, successes := q.successes + 1 }
  else q

-- A search seed by seed: each seed is closed by the one behind it, the last by
-- the end of the rows. A fault leaves the seed that is then open as it is.
def sweep (fault : Option Fault) (q : Query) : List (List Row) → Query × Option Fault
  | [] => (q, fault)
  | [run] =>
    match (faultIn q.criteria run).or fault with
    | some f => (q, some f)
    | none => (q.reap run, none)
  | run :: next :: rest =>
    match faultIn q.criteria run with
    | some f => (q, some f)
    | none => if (q.reap run).isComplete then (q.reap run, none) else sweep fault (q.reap run) (next :: rest)

variable {q : Query} {run : List Row} {rest : List (List Row)} {fault : Option Fault} {f : Fault}

@[simp] theorem reap_limits : (q.reap run).limits = q.limits := by
  unfold reap
  split <;> rfl

@[simp] theorem reap_criteria : (q.reap run).criteria = q.criteria := by
  unfold reap
  split <;> rfl

theorem evaluate_limits (q : Query) (r : Row) : (q.evaluate r).1.limits = q.limits := by
  unfold evaluate
  split <;> rfl

@[simp] theorem reap_inBounds : (q.reap run).inBounds = q.inBounds := inBounds_of_limits reap_limits

theorem Alike.commit {p q : Query} (same : p.Alike q) (scratch : Scratch) :
    (p.commit scratch).Alike { q with results := q.results ++ scratch.buffer, successes := q.successes + 1 } := by
  obtain ⟨limits, criteria, successes, results⟩ := alike_iff.mp same
  exact alike_iff.mpr ⟨limits, criteria, by simp [Query.commit, successes], by simp [Query.commit, results]⟩

end Query

namespace Scan

variable {q : Query} {run rows : List Row} {s : Scan} {r : Row} {seed : Int}
  {runs : List (List Row)} {fault : Option Fault} {before : Nat}

@[simp] theorem close_scratch : s.close.scratch = s.scratch := by
  unfold close
  split
  · rfl
  · split <;> rfl

@[simp] theorem close_limits : s.close.query.limits = s.query.limits := by
  unfold close
  split
  · rfl
  · split <;> rfl

theorem Sifted.close (h : Sifted q seed run s) : s.close.query.Alike (q.reap run) := by
  by_cases out : RuledOut q.criteria run
  · have lost : ¬ Kept q.criteria run := fun kept => kept.1 out
    simpa [Scan.close, h.seed, Query.qualifies, h.lost out, Query.reap, lost] using h.frame
  · obtain ⟨kept, counts, buffer, latched, taken⟩ := h.live out
    have all := Query.allSatisfied_iff counts
    by_cases whole : Qualifies q.criteria run
    · have keeps : Kept q.criteria run := ⟨out, whole⟩
      have commits : s.query.qualifies s.scratch = true := by
        simp [Query.qualifies, latched whole, kept, all.mpr whole.2]
      simpa [Scan.close, h.seed, commits, Query.reap, keeps, buffer] using h.frame.commit s.scratch
    · have lost : ¬ Kept q.criteria run := fun keeps => whole keeps.2
      have passes : s.query.qualifies s.scratch = false := by
        rw [Bool.eq_false_iff]
        intro qualifies
        simp only [Query.qualifies, Bool.and_eq_true] at qualifies
        exact whole ⟨taken qualifies.1.1, all.mp qualifies.2⟩
      simpa [Scan.close, h.seed, passes, Query.reap, lost] using h.frame

def opening (s : Scan) (seed : Int) : Scan :=
  { s with scratch := { seed := some seed }, query := s.query.resetCounts }

theorem sifted_opening (frame : s.query.Alike q) : Sifted q seed [] (s.opening seed) := by
  have criteria : s.query.criteria = q.criteria := (Query.alike_iff.mp frame).2.1
  refine ⟨rfl, ?_, rfl, ?_, fun _ => ⟨rfl, ?_, rfl, ?_, ?_⟩⟩
  · obtain ⟨limits, -, successes, results⟩ := Query.alike_iff.mp frame
    exact Query.alike_iff.mpr ⟨limits, by simp [opening, Query.resetCounts_criteria, criteria], successes, results⟩
  · rintro ⟨t, member, -⟩
    cases member
  · simp [opening, Query.resetCounts_tallies, criteria]
  · rintro ⟨⟨r, member, -⟩, -⟩
    cases member
  · intro satisfied
    cases satisfied

@[simp] theorem opening_limits : (s.opening seed).query.limits = s.query.limits := rfl

theorem step_new (bounds : s.query.inBounds r = true) (new : s.scratch.seed ≠ some r.seed) :
    s.step r = if s.scratch.seed.isSome && s.close.query.isComplete then (s.close, some .complete)
      else (s.close.opening r.seed).step r := by
  have still : (s.close.opening r.seed).query.inBounds r = true := by
    simpa [Query.inBounds] using bounds
  rw [step_open still rfl]
  by_cases complete : (s.scratch.seed.isSome && s.close.query.isComplete) = true
  · simp [step, bounds, enter, new, complete]
  · simp only [step, bounds, enter, new, close_scratch, complete]
    rfl

theorem run_append (s : Scan) (rows more : List Row) : s.run (rows ++ more) =
    match s.run rows with
    | (after, none) => after.run more
    | (after, some stop) => (after, some stop) := by
  induction rows generalizing s with
  | nil => rfl
  | cons r rest ih =>
    cases stepped : s.step r with
    | mk after stop => cases stop <;> simp [run, stepped, ih]

theorem run_new (bounds : s.query.inBounds r = true) (new : s.scratch.seed ≠ some r.seed)
    (short : s.scratch.seed.isSome = true → s.close.query.isComplete = false) :
    s.run (r :: rows) = (s.close.opening r.seed).run (r :: rows) := by
  have goes : (s.scratch.seed.isSome && s.close.query.isComplete) = false := by
    cases seed : s.scratch.seed <;> simp_all
  simp [run, step_new bounds new, goes]

theorem run_complete (bounds : s.query.inBounds r = true) (new : s.scratch.seed ≠ some r.seed)
    (some : s.scratch.seed.isSome = true) (complete : s.close.query.isComplete = true) :
    s.run (r :: rows) = (s.close, .some .complete) := by
  simp [run, step_new bounds new, some, complete]

def Result.Agrees (result : Result) (before : Nat) (swept : Query × Option Fault) : Prop :=
  result.query.Alike swept.1 ∧ result.committed =
    match swept.2 with
    | some f => .error f
    | none => .ok (swept.1.successes - before)

theorem agrees_done (frame : s.query.Alike q) : (finish.done before s).Agrees before (q, none) :=
  ⟨frame, by simp [finish.done, (Query.alike_iff.mp frame).2.2.1]⟩

theorem agrees_fault {f : Fault} (frame : s.query.Alike q) :
    Result.Agrees ⟨s.query, s.notes.reverse, .error f⟩ before (q, some f) := ⟨frame, rfl⟩

theorem run_opened (frame : s.close.query.Alike q) (bounds : q.inBounds r = true)
    (new : s.scratch.seed ≠ some r.seed) (short : s.scratch.seed.isSome = true → q.isComplete = false) :
    s.run (r :: rows) = (s.close.opening r.seed).run (r :: rows) := by
  have limits : s.query.inBounds = q.inBounds :=
    Query.inBounds_of_limits (close_limits.symm.trans (Query.alike_iff.mp frame).1)
  apply run_new (by rw [limits]; exact bounds) new
  rwa [frame.isComplete]

-- The first row behind a seed ends the scan if that seed was the last one wanted.
theorem run_ended {next : List Row} (h : Sifted q seed run s) (later : Parted (some seed) (next :: runs))
    (bounds : ∀ r ∈ next, q.inBounds r = true) (complete : (q.reap run).isComplete = true) :
    s.run (next :: runs).flatten = (s.close, some .complete) := by
  obtain _ | ⟨nonempty, one, new, -⟩ := later
  obtain ⟨r, others, rfl⟩ := List.exists_cons_of_ne_nil nonempty
  have opened : s.scratch.seed = some seed := h.seed
  apply run_complete
  · rw [h.frame.inBounds]
    exact bounds r (by simp)
  · rw [opened, one r (by simp)]
    exact new
  · simp [opened]
  · rw [h.close.isComplete, complete]

theorem run_sweep (parted : Parted s.scratch.seed runs) (full : runs ≠ []) (frame : s.close.query.Alike q)
    (short : s.scratch.seed.isSome = true → q.isComplete = false)
    (bounds : ∀ r ∈ runs.flatten, q.inBounds r = true) :
    ((s.run runs.flatten).1.finish before (s.run runs.flatten).2 fault).Agrees before (q.sweep fault runs) := by
  induction runs generalizing s q with
  | nil => exact absurd rfl full
  | cons run rest ih =>
    obtain _ | ⟨nonempty, one, new, later⟩ := parted
    rename_i seed
    obtain ⟨r, more, rfl⟩ := List.exists_cons_of_ne_nil nonempty
    have own : r.seed = seed := one r (by simp)
    have opened : s.run (r :: more ++ rest.flatten) = (s.close.opening seed).run (r :: more ++ rest.flatten) := by
      rw [← own]
      exact run_opened frame (bounds r (by simp)) (by rwa [own]) short
    have inside : ∀ x ∈ r :: more, q.inBounds x = true :=
      fun x member => bounds x (List.mem_flatten.mpr ⟨_, by simp, member⟩)
    have behind : ∀ x ∈ rest.flatten, q.inBounds x = true :=
      fun x member => bounds x (by rw [List.flatten_cons]; exact List.mem_append_right _ member)
    have sifted : Sifted q seed [] (s.close.opening seed) := sifted_opening frame
    rw [List.flatten_cons, opened, run_append]
    cases here : faultIn q.criteria (r :: more) with
    | some f =>
      obtain ⟨after, ran, alike⟩ := sifted.run_broken here inside one
      have swept : q.sweep fault ((r :: more) :: rest) = (q, some f) := by
        cases rest <;> simp [Query.sweep, here]
      rw [ran, swept]
      exact agrees_fault alike
    | none =>
      obtain ⟨after, ran, (done : Sifted q seed (r :: more) after)⟩ := sifted.run_sound here inside one
      rw [ran]
      dsimp only
      cases rest with
      | nil =>
        cases fault with
        | none => simpa [Scan.run, finish, Query.sweep, here] using agrees_done done.close
        | some f => simpa [Scan.run, finish, Query.sweep, here] using agrees_fault done.frame
      | cons next rest =>
        by_cases complete : (q.reap (r :: more)).isComplete = true
        · have swept : q.sweep fault ((r :: more) :: next :: rest) = (q.reap (r :: more), none) := by
            simp [Query.sweep, here, complete]
          have bounded : ∀ x ∈ next, q.inBounds x = true := fun x member => behind x (by simp [member])
          rw [run_ended done later bounded complete, swept]
          exact agrees_done done.close
        · have swept : q.sweep fault ((r :: more) :: next :: rest) =
              (q.reap (r :: more)).sweep fault (next :: rest) := by
            simp [Query.sweep, here, complete]
          rw [swept]
          refine ih ?_ (by simp) done.close (fun _ => by simpa using complete) ?_
          · rw [show after.scratch.seed = some seed from done.seed]
            exact later
          · intro x member
            rw [Query.reap_inBounds]
            exact behind x member

theorem enter_limits (s : Scan) (seed : Int) : (s.enter seed).1.query.limits = s.query.limits := by
  unfold enter
  split
  · rfl
  · dsimp only
    split
    · exact close_limits
    · exact close_limits

theorem record_query (m : Match) : (s.record m).query = s.query := by
  unfold record
  split <;> rfl

theorem step_limits (s : Scan) (r : Row) : (s.step r).1.query.limits = s.query.limits := by
  have entered := s.enter_limits r.seed
  unfold step
  split
  · rfl
  · split
    · next last => simpa [last] using entered
    · next inner opened =>
      have evaluated := inner.query.evaluate_limits r
      rw [opened] at entered
      split
      · exact entered
      · split
        · next broken => exact (broken ▸ evaluated).trans entered
        · next untaken => exact (untaken ▸ evaluated).trans entered
        · next taken => rw [record_query]; exact (taken ▸ evaluated).trans entered

-- Rows out of bounds leave no trace.
theorem run_filter : s.run rows = s.run (rows.filter s.query.inBounds) := by
  induction rows generalizing s with
  | nil => rfl
  | cons r rest ih =>
    by_cases bounds : s.query.inBounds r = true
    · rw [List.filter_cons_of_pos bounds]
      cases stepped : s.step r with
      | mk after stop =>
        have limits : after.query.inBounds = s.query.inBounds := by
          have kept := s.step_limits r
          rw [stepped] at kept
          exact Query.inBounds_of_limits kept
        cases stop with
        | none => simp [run, stepped, ← limits, ← ih]
        | some stop => simp [run, stepped]
    · rw [List.filter_cons_of_neg bounds, ← ih]
      simp [run, step, bounds]

end Scan

def Query.runs (q : Query) (rows : List Row) : List (List Row) := seedRuns (rows.filter q.inBounds)

theorem Query.scan_agrees (q : Query) (rows : List Row) (fault : Option Fault) :
    (q.scan { items := rows, fault }).Agrees q.successes (q.sweep fault (q.runs rows)) := by
  let initial : Scan := { query := q.resetCounts }
  have frame : initial.close.query.Alike q := alike_iff.mpr ⟨rfl, resetCounts_criteria q, rfl, rfl⟩
  have parted : Parted initial.scratch.seed (q.runs rows) := parted_seedRuns _ (by simp [initial])
  have whole : initial.run rows = initial.run (q.runs rows).flatten := by
    rw [Scan.run_filter, runs, seedRuns, List.flatten_splitBy]
    rfl
  have bounds : ∀ r ∈ (q.runs rows).flatten, q.inBounds r = true := by simp [runs, seedRuns]
  unfold scan
  change ((initial.run rows).1.finish q.successes (initial.run rows).2 fault).Agrees _ _
  rw [whole]
  by_cases full : q.runs rows = []
  · rw [full]
    cases fault with
    | none => exact Scan.agrees_done frame
    | some f => exact Scan.agrees_fault frame
  · exact Scan.run_sweep parted full frame (by simp [initial]) bounds

end SeedSearch
