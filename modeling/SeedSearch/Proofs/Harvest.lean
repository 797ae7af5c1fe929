import SeedSearch.Proofs.Sweep

namespace SeedSearch
open Catalog (Row)
open Criterion

variable {q : Query} {cs : List Criterion} {rows run : List Row} {runs : List (List Row)} {r : Row}

theorem mem_heeded {t : Taking} {ts : List Taking} (member : t ∈ Taking.heeded ts) : t ∈ ts := by
  induction ts with
  | nil => cases member
  | cons u rest ih =>
    rcases List.mem_cons.mp member with rfl | later
    · exact List.mem_cons_self
    · by_cases exits : u.outcome.abandons = true
      · simp [exits] at later
      · rw [if_neg exits] at later
        exact List.mem_cons_of_mem _ (ih later)

theorem row_of_mem_takings {t : Taking} (member : t ∈ takings cs run) :
    t.row ∈ run ∧ (taker cs t.row).isSome = true := by
  obtain ⟨here, later, rfl, counted⟩ := mem_takingsAfter member
  exact ⟨by simp, isSome_of_outcomeAt counted⟩

theorem faultIn_of_known (known : ∀ r ∈ run, (taker cs r).isSome = true → ∃ o, r.object = .ok o) :
    faultIn cs run = none := by
  rw [faultIn, List.findSome?_eq_none_iff]
  intro t member
  obtain ⟨inside, takes⟩ := row_of_mem_takings (mem_heeded member)
  obtain ⟨o, known⟩ := known _ inside takes
  simp [Taking.fault?, known]

theorem length_found_after {before : List Row}
    (known : ∀ r ∈ run, (taker cs r).isSome = true → ∃ o, r.object = .ok o) :
    ((takingsAfter cs before run).filterMap Taking.match?).length = run.countP fun r => (taker cs r).isSome := by
  induction run generalizing before with
  | nil => rfl
  | cons r rest ih =>
    rw [takingsAfter, List.filterMap_append, List.length_append, List.countP_cons,
      ih fun x member => known x (by simp [member])]
    cases taken : outcomeAt cs before r with
    | none =>
      simp [taking, taken, untaken_of_outcomeAt taken]
    | some outcome =>
      have takes := isSome_of_outcomeAt taken
      obtain ⟨o, object⟩ := known r (by simp) takes
      simp [taking, taken, takes, Taking.match?, object, Except.toOption, Nat.add_comm]

theorem length_found (known : ∀ r ∈ run, (taker cs r).isSome = true → ∃ o, r.object = .ok o) :
    (found cs run).length = run.countP fun r => (taker cs r).isSome :=
  length_found_after known

theorem mem_runs (member : run ∈ q.runs rows) (inside : r ∈ run) : r ∈ rows ∧ q.inBounds r = true := by
  have whole : r ∈ (q.runs rows).flatten := List.mem_flatten.mpr ⟨run, member, inside⟩
  simpa [Query.runs, seedRuns] using whole

namespace Query

def gather (q : Query) (chosen : List (List Row)) : Query :=
  { q with results := q.results ++ chosen.flatMap (found q.criteria), successes := q.successes + chosen.length }

def missing (q : Query) : Nat := (q.target - q.successes).toNat

theorem isComplete_iff : q.isComplete = true ↔ q.missing = 0 := by
  simp only [isComplete, missing, decide_eq_true_eq]
  omega

theorem reap_kept (kept : Kept q.criteria run) : q.reap run = q.gather [run] := by
  simp [reap, kept, gather]

theorem reap_lost (lost : ¬ Kept q.criteria run) : q.reap run = q := by
  simp [reap, lost]

theorem gather_cons (run : List Row) (rest : List (List Row)) :
    (q.gather [run]).gather rest = q.gather (run :: rest) := by
  have criteria : (q.gather [run]).criteria = q.criteria := rfl
  simp only [gather, Query.mk.injEq, true_and]
  constructor
  · simp
    omega
  · simp [← List.append_assoc]
    rfl

theorem missing_gather (run : List Row) : (q.gather [run]).missing = q.missing - 1 := by
  have target : (q.gather [run]).target = q.target := rfl
  have successes : (q.gather [run]).successes = q.successes + 1 := rfl
  rw [missing, missing, target, successes]
  omega

theorem sweep_cons (sound : faultIn q.criteria run = none) : q.sweep none (run :: runs) =
    if (q.reap run).isComplete then (q.reap run, none) else (q.reap run).sweep none runs := by
  cases runs with
  | nil => simp [sweep, sound]
  | cons next rest => simp [sweep, sound]

theorem sweep_sound (sound : ∀ run ∈ runs, faultIn q.criteria run = none) (short : q.isComplete = false) :
    q.sweep none runs =
      (q.gather ((runs.filter fun run => Kept q.criteria run).take q.missing), none) := by
  induction runs generalizing q with
  | nil => simp [sweep, gather]
  | cons run rest ih =>
    have wants : q.missing ≠ 0 := by
      rw [ne_eq, ← isComplete_iff, short]
      simp
    obtain ⟨n, missing⟩ := Nat.exists_eq_succ_of_ne_zero wants
    have later : ∀ x ∈ rest, faultIn q.criteria x = none := fun x member => sound x (by simp [member])
    rw [sweep_cons (sound run (by simp))]
    by_cases kept : Kept q.criteria run
    · have left : (q.gather [run]).missing = n := by rw [missing_gather, missing, Nat.succ_sub_one]
      rw [reap_kept kept, List.filter_cons_of_pos (by simpa using kept), missing, List.take_succ_cons,
        ← gather_cons run (List.take n _)]
      by_cases complete : (q.gather [run]).isComplete = true
      · rw [if_pos complete, ← left, isComplete_iff.mp complete]
        simp [gather]
      · rw [if_neg complete, ih (q := q.gather [run]) later (by simpa using complete), left]
        rfl
    · rw [reap_lost kept, List.filter_cons_of_neg (by simpa using kept), short]
      exact ih later short

-- The first runs that qualify, as many as the search is still after.
def wanted (q : Query) (rows : List Row) : List (List Row) :=
  ((q.runs rows).filter fun run => Qualifies q.criteria run).take q.missing

-- A scan of a whole file finds the seeds that qualify by their whole quantities,
-- with a match for each row that is taken in them.
theorem scan_finds_wanted (q : Query) (rows : List Row) (short : (q.successes : Int) < q.target)
    (nonneg : ∀ r ∈ rows, 0 ≤ r.quantity)
    (known : ∀ r ∈ rows, q.inBounds r = true → (∃ c ∈ q.criteria, c.accepts r = true) → ∃ o, r.object = .ok o) :
    (q.scan { items := rows }).committed = .ok (q.wanted rows).length ∧
    (q.scan { items := rows }).query.successes = q.successes + (q.wanted rows).length ∧
    (q.scan { items := rows }).query.results = q.results ++ (q.wanted rows).flatMap (found q.criteria) ∧
    (q.scan { items := rows }).query.criteria = q.criteria ∧
    (q.scan { items := rows }).query.limits = q.limits ∧
    ∀ run ∈ q.wanted rows, (found q.criteria run).length = run.countP fun r => (taker q.criteria r).isSome := by
  have unfinished : q.isComplete = false := by simpa [isComplete] using short
  have knownIn : ∀ run ∈ q.runs rows, ∀ r ∈ run, (taker q.criteria r).isSome = true → ∃ o, r.object = .ok o := by
    intro run member r inside takes
    obtain ⟨here, bounds⟩ := mem_runs member inside
    exact known r here bounds (taker_isSome.mp takes)
  have wanted : ((q.runs rows).filter fun run => Kept q.criteria run).take q.missing = q.wanted rows := by
    rw [Query.wanted]
    congr 1
    apply List.filter_congr
    intro run member
    have quantities : ∀ r ∈ run, 0 ≤ r.quantity := fun r inside => nonneg r (mem_runs member inside).1
    simp only [kept_iff_qualifies quantities]
  obtain ⟨frame, committed⟩ := q.scan_agrees rows none
  rw [sweep_sound (fun run member => faultIn_of_known (knownIn run member)) unfinished, wanted] at frame committed
  obtain ⟨limits, criteria, successes, results⟩ := alike_iff.mp frame
  refine ⟨by simpa [gather] using committed, successes, results, criteria, limits, ?_⟩
  intro run member
  exact length_found (knownIn run (List.mem_of_mem_filter (List.mem_of_mem_take member)))

end Query

def goldRow (seed quantity : Int) : Row where
  version := "CE"
  seed := seed
  depth := 1
  quantity := quantity
  category := .gold
  kind := "gold pieces"

def goldQuery : Query :=
  .ofCriteria { matchesMax := 1 } [{ category := .gold, mode := .equalTo, target := 5 }]

-- The first seed overshoots, the second is hit exactly, and the third is no
-- longer wanted.
theorem scan_finds_second_seed :
    (goldQuery.scan { items := [goldRow 1 7, goldRow 2 2, goldRow 2 3, goldRow 3 5] }).committed = .ok 1 ∧
    (goldQuery.scan { items := [goldRow 1 7, goldRow 2 2, goldRow 2 3, goldRow 3 5] }).query.results =
      found goldQuery.criteria [goldRow 2 2, goldRow 2 3] := by
  have wanted : goldQuery.wanted [goldRow 1 7, goldRow 2 2, goldRow 2 3, goldRow 3 5] =
      [[goldRow 2 2, goldRow 2 3]] := by decide +kernel
  have objects : ∀ r ∈ [goldRow 1 7, goldRow 2 2, goldRow 2 3, goldRow 3 5],
      r.object = .ok ⟨.gold, "gold pieces", .gold r.quantity 1⟩ := by decide +kernel
  obtain ⟨committed, -, results, -⟩ := goldQuery.scan_finds_wanted
    [goldRow 1 7, goldRow 2 2, goldRow 2 3, goldRow 3 5] (by decide) (by decide)
    (fun r member _ _ => ⟨_, objects r member⟩)
  rw [wanted] at committed results
  exact ⟨committed, by simpa [goldQuery, Query.ofCriteria] using results⟩

end SeedSearch
