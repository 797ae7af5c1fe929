import SeedSearch.Proofs.Harvest

namespace SeedSearch
open Catalog (Row)
open Criterion

variable {q : Query} {cs : List Criterion} {rows run before after kept : List Row}
  {runs front rest : List (List Row)} {r : Row} {f : Fault} {fault : Option Fault}

namespace Criterion

-- The row is taken while its seed is not ruled out, and is the first such row
-- that describes no object.
def BreaksAt (cs : List Criterion) (before : List Row) (r : Row) (f : Fault) : Prop :=
  (taker cs r).isSome = true ∧ r.object = .error f ∧ ¬ RuledOut cs before ∧
    ∀ x ∈ before, (taker cs x).isSome = true → ∃ o, x.object = .ok o

theorem exists_taking (inside : r ∈ run) (takes : (taker cs r).isSome = true) :
    ∃ t ∈ takings cs run, t.row = r := by
  obtain ⟨before, after, rfl⟩ := List.append_of_mem inside
  obtain ⟨outcome, counted⟩ := exists_outcomeAt before takes
  refine ⟨⟨r, outcome⟩, ?_, rfl⟩
  rw [takings_append, takingsAfter]
  exact List.mem_append_right _ (List.mem_append_left _ (mem_taking.mpr ⟨rfl, counted⟩))

theorem known_of_faultIn (sound : faultIn cs run = none) (live : ¬ RuledOut cs run) :
    ∀ x ∈ run, (taker cs x).isSome = true → ∃ o, x.object = .ok o := by
  intro x inside takes
  obtain ⟨t, member, rfl⟩ := exists_taking inside takes
  have quiet : (takings cs run).any (·.outcome.abandons) = false := by
    simpa [RuledOut] using live
  rw [faultIn, Taking.heeded_of_live quiet, List.findSome?_eq_none_iff] at sound
  have fine := sound t member
  cases object : t.row.object with
  | ok o => exact ⟨o, rfl⟩
  | error f => simp [Taking.fault?, object] at fine

theorem faultIn_eq_some_iff :
    faultIn cs run = some f ↔ ∃ before r after, run = before ++ r :: after ∧ BreaksAt cs before r f := by
  constructor
  · intro fault
    induction run using List.reverseRecOn with
    | nil => cases fault
    | append_singleton run r ih =>
      cases earlier : faultIn cs run with
      | some g =>
        rw [faultIn_append earlier] at fault
        obtain ⟨before, x, after, split, breaks⟩ := ih (earlier.trans fault)
        exact ⟨before, x, after ++ [r], by simp [split], breaks⟩
      | none =>
        have live : ¬ RuledOut cs run := by
          intro out
          rw [faultIn_of_ruledOut out, earlier] at fault
          cases fault
        rw [faultIn_snoc earlier live] at fault
        obtain ⟨t, member, fails⟩ := List.exists_of_findSome?_eq_some fault
        obtain ⟨rfl, counted⟩ := mem_taking.mp member
        refine ⟨run, t.row, [], rfl, isSome_of_outcomeAt counted, ?_, live, known_of_faultIn earlier live⟩
        cases object : t.row.object with
        | ok o => simp [Taking.fault?, object] at fails
        | error g => simpa [Taking.fault?, object] using fails
  · rintro ⟨before, r, after, rfl, takes, broken, live, known⟩
    obtain ⟨outcome, counted⟩ := exists_outcomeAt before takes
    have here : faultIn cs (before ++ [r]) = some f := by
      rw [faultIn_snoc (faultIn_of_known known) live]
      simp [taking, counted, Taking.fault?, broken]
    have whole : before ++ r :: after = (before ++ [r]) ++ after := by simp
    rw [whole, faultIn_append here]

end Criterion

namespace Query

theorem sweep_next (sound : faultIn q.criteria run = none) (more : runs ≠ []) : q.sweep fault (run :: runs) =
    if (q.reap run).isComplete then (q.reap run, none) else (q.reap run).sweep fault runs := by
  obtain ⟨next, rest, rfl⟩ := List.exists_cons_of_ne_nil more
  simp [sweep, sound]

theorem sweep_none (sound : ∀ x ∈ front, faultIn q.criteria x = none) :
    (q.sweep none front).2 = none ∧ (q.sweep none front).1.criteria = q.criteria := by
  induction front generalizing q with
  | nil => exact ⟨rfl, rfl⟩
  | cons first more ih =>
    rw [sweep_cons (sound first (by simp))]
    split
    · exact ⟨rfl, reap_criteria⟩
    · have later := ih (q := q.reap first) (by simpa using fun x member => sound x (List.mem_cons_of_mem _ member))
      simpa using later

-- Runs without a fault are closed as if nothing came behind the last of them;
-- the next row then tells whether the search is over.
theorem sweep_front (sound : ∀ x ∈ front, faultIn q.criteria x = none) (short : q.isComplete = false) :
    q.sweep fault (front ++ run :: rest) =
      if (q.sweep none front).1.isComplete then ((q.sweep none front).1, none)
      else (q.sweep none front).1.sweep fault (run :: rest) := by
  induction front generalizing q with
  | nil => simp [sweep, short]
  | cons first more ih =>
    have here := sound first (by simp)
    rw [List.cons_append, sweep_cons here, sweep_next here (by simp)]
    by_cases complete : (q.reap first).isComplete = true
    · simp [complete]
    · simp only [if_neg complete]
      apply ih _ (by simpa using complete)
      simpa using fun x member => sound x (List.mem_cons_of_mem _ member)

end Query

-- The scan is over if the seeds of `kept` are enough, and else the fault is told;
-- nothing more is found.
structure BreaksOff (q : Query) (kept : List Row) (f : Fault) (result : Scan.Result) : Prop where
  closes : ∃ n, (q.scan { items := kept }).committed = .ok n
  results : result.query.results = (q.scan { items := kept }).query.results
  successes : result.query.successes = (q.scan { items := kept }).query.successes
  returns : (q.scan { items := kept }).query.isComplete = true →
    result.committed = (q.scan { items := kept }).committed
  raises : (q.scan { items := kept }).query.isComplete = false → result.committed = .error f

theorem breaksOff_of_sweep (sound : ∀ x ∈ front, faultIn q.criteria x = none) (parted : Parted none front)
    (closed : kept.filter q.inBounds = front.flatten)
    (swept : q.sweep fault (q.runs rows) =
      if (q.sweep none front).1.isComplete then ((q.sweep none front).1, none)
      else ((q.sweep none front).1, some f)) :
    BreaksOff q kept f (q.scan { items := rows, fault }) := by
  have runs : q.runs kept = front := by rw [Query.runs, closed, seedRuns_flatten parted]
  obtain ⟨keptFrame, keptCommitted⟩ := q.scan_agrees kept none
  obtain ⟨frame, committed⟩ := q.scan_agrees rows fault
  rw [runs] at keptFrame keptCommitted
  rw [swept] at frame committed
  have ok : (q.sweep none front).2 = none := (Query.sweep_none sound).1
  obtain ⟨-, -, keptSuccesses, keptResults⟩ := Query.alike_iff.mp keptFrame
  by_cases complete : (q.sweep none front).1.isComplete = true
  · simp only [if_pos complete] at frame committed
    obtain ⟨-, -, successes, results⟩ := Query.alike_iff.mp frame
    rw [ok] at keptCommitted
    refine ⟨⟨_, keptCommitted⟩, results.trans keptResults.symm, successes.trans keptSuccesses.symm, ?_, ?_⟩
    · exact fun _ => committed.trans keptCommitted.symm
    · rw [keptFrame.isComplete, complete]
      simp
  · simp only [if_neg complete] at frame committed
    obtain ⟨-, -, successes, results⟩ := Query.alike_iff.mp frame
    rw [ok] at keptCommitted
    refine ⟨⟨_, keptCommitted⟩, results.trans keptResults.symm, successes.trans keptSuccesses.symm, ?_, ?_⟩
    · rw [keptFrame.isComplete]
      exact fun full => absurd full complete
    · exact fun _ => committed

theorem BreaksOff.of_failed {result : Scan.Result} {g : Fault} (breaks : BreaksOff q kept f result)
    (failed : result.committed = .error g) :
    f = g ∧ (q.scan { items := kept }).query.isComplete = false := by
  cases complete : (q.scan { items := kept }).query.isComplete with
  | true =>
    obtain ⟨n, closes⟩ := breaks.closes
    have returned := breaks.returns complete
    rw [failed, closes] at returned
    cases returned
  | false =>
    have raised := breaks.raises complete
    rw [failed] at raised
    exact ⟨(Except.error.inj raised).symm, rfl⟩

theorem filter_flatten (part : ∀ run ∈ front, run ∈ q.runs rows) :
    front.flatten.filter q.inBounds = front.flatten := by
  rw [List.filter_eq_self]
  intro r member
  obtain ⟨run, inside, here⟩ := List.mem_flatten.mp member
  exact (mem_runs (part run inside) here).2

theorem breaksOff_reading (sound : ∀ run ∈ q.runs rows, faultIn q.criteria run = none) (short : q.isComplete = false)
    (closed : kept.filter q.inBounds = (q.runs rows).dropLast.flatten) :
    BreaksOff q kept f (q.scan { items := rows, fault := some f }) := by
  have parted : Parted none (q.runs rows) := parted_seedRuns _ (by simp)
  rcases List.eq_nil_or_concat (q.runs rows) with empty | ⟨front, last, split⟩
  · rw [empty] at closed
    apply breaksOff_of_sweep (by simp) .nil closed
    simp [empty, Query.sweep, short]
  · rw [List.concat_eq_append] at split
    rw [split] at sound closed parted
    rw [List.dropLast_concat] at closed
    have before : ∀ x ∈ front, faultIn q.criteria x = none := fun x member => sound x (by simp [member])
    apply breaksOff_of_sweep before (parted_front parted) closed
    have quiet : faultIn (q.sweep none front).1.criteria last = none := by
      rw [(Query.sweep_none before).2]
      exact sound last (by simp)
    rw [split, Query.sweep_front before short]
    simp [Query.sweep, quiet]

theorem breaksOff_row (split : q.runs rows = front ++ run :: rest)
    (sound : ∀ x ∈ front, faultIn q.criteria x = none) (broken : faultIn q.criteria run = some f)
    (short : q.isComplete = false) (closed : kept.filter q.inBounds = front.flatten) :
    BreaksOff q kept f (q.scan { items := rows, fault }) := by
  have parted : Parted none (front ++ run :: rest) := split ▸ parted_seedRuns _ (by simp)
  apply breaksOff_of_sweep sound (parted_front parted) closed
  have broken : faultIn (q.sweep none front).1.criteria run = some f := by
    rw [(Query.sweep_none sound).2, broken]
  rw [split, Query.sweep_front sound short]
  cases rest <;> simp [Query.sweep, broken]

theorem first_fault (cs : List Criterion) (runs : List (List Row)) :
    (∀ run ∈ runs, faultIn cs run = none) ∨ ∃ front run rest f, runs = front ++ run :: rest ∧
      (∀ x ∈ front, faultIn cs x = none) ∧ faultIn cs run = some f := by
  induction runs with
  | nil => exact Or.inl (by simp)
  | cons run rest ih =>
    cases here : faultIn cs run with
    | some f => exact Or.inr ⟨[], run, rest, f, rfl, by simp, here⟩
    | none =>
      rcases ih with sound | ⟨front, broken, behind, f, rfl, sound, fault⟩
      · exact Or.inl (by simpa [here] using sound)
      · exact Or.inr ⟨run :: front, broken, behind, f, rfl, by simpa [here] using sound, fault⟩

-- A fault keeps what the seeds closed before it have come to, and nothing of
-- the open one. It is the reader's, or that of a row which is in bounds, taken,
-- not ruled out with its seed before, and reached before the search is over.
theorem Query.scan_breaks_off (q : Query) (rows : List Row) (fault : Option Fault)
    (short : (q.successes : Int) < q.target) :
    (∀ f kept, fault = some f → (∀ run ∈ q.runs rows, faultIn q.criteria run = none) →
      kept.filter q.inBounds = (q.runs rows).dropLast.flatten →
      BreaksOff q kept f (q.scan { items := rows, fault })) ∧
    (∀ front before r after rest f kept, q.runs rows = front ++ (before ++ r :: after) :: rest →
      (∀ run ∈ front, faultIn q.criteria run = none) → BreaksAt q.criteria before r f →
      kept.filter q.inBounds = front.flatten →
      BreaksOff q kept f (q.scan { items := rows, fault })) ∧
    (∀ f, (q.scan { items := rows, fault }).committed = .error f → fault = some f ∨
      ∃ front before r after rest, q.runs rows = front ++ (before ++ r :: after) :: rest ∧
        (∀ run ∈ front, faultIn q.criteria run = none) ∧ BreaksAt q.criteria before r f ∧
        (q.scan { items := front.flatten }).query.isComplete = false) := by
  have unfinished : q.isComplete = false := by simpa [Query.isComplete] using short
  refine ⟨?_, ?_, ?_⟩
  · rintro f kept rfl sound closed
    exact breaksOff_reading sound unfinished closed
  · intro front before r after rest f kept split sound breaks closed
    exact breaksOff_row split sound (faultIn_eq_some_iff.mpr ⟨_, _, _, rfl, breaks⟩) unfinished closed
  · intro g failed
    rcases first_fault q.criteria (q.runs rows) with sound | ⟨front, run, rest, f, split, sound, broken⟩
    · cases fault with
      | none =>
        obtain ⟨-, committed⟩ := q.scan_agrees rows none
        rw [(Query.sweep_none sound).1, failed] at committed
        cases committed
      | some f =>
        have closed : ((q.runs rows).dropLast.flatten).filter q.inBounds = (q.runs rows).dropLast.flatten :=
          filter_flatten fun run member => (List.dropLast_sublist _).subset member
        rw [((breaksOff_reading sound unfinished closed).of_failed failed).1]
        exact Or.inl rfl
    · have closed : front.flatten.filter q.inBounds = front.flatten :=
        filter_flatten fun x member => split ▸ List.mem_append_left _ member
      obtain ⟨rfl, open'⟩ := (breaksOff_row split sound broken unfinished closed).of_failed failed
      obtain ⟨before, r, after, rfl, breaks⟩ := faultIn_eq_some_iff.mp broken
      exact Or.inr ⟨front, before, r, after, rest, split, sound, breaks, open'⟩

def dustRow (seed : Int) : Row := { goldRow seed 1 with kind := "dust" }

def dustFault : Fault := .format { reason := .unknownKind .gold "dust" }

def goldPair : Query := .ofCriteria { matchesMax := 2 } [{ category := .gold, mode := .equalTo, target := 5 }]

-- The second seed is satisfied when the row without an object comes, and is lost
-- with it; the same rows cut off by the reader keep as little.
theorem scan_breaks_off_open_seed :
    BreaksOff goldPair [goldRow 1 5] dustFault
      (goldPair.scan { items := [goldRow 1 5, goldRow 2 5, dustRow 2, goldRow 3 5] }) ∧
    BreaksOff goldPair [goldRow 1 5] (.decoding .missingMark)
      (goldPair.scan { items := [goldRow 1 5, goldRow 2 5], fault := some (.decoding .missingMark) }) := by
  have short : (goldPair.successes : Int) < goldPair.target := by decide
  constructor
  · obtain ⟨-, row, -⟩ := goldPair.scan_breaks_off [goldRow 1 5, goldRow 2 5, dustRow 2, goldRow 3 5] none short
    refine row [[goldRow 1 5]] [goldRow 2 5] (dustRow 2) [] [[goldRow 3 5]] dustFault _ ?_ ?_ ?_ ?_
    · decide +kernel
    · decide +kernel
    · refine ⟨by decide +kernel, by decide +kernel, by decide +kernel, ?_⟩
      intro x member _
      rw [List.mem_singleton.mp member]
      exact ⟨⟨.gold, "gold pieces", .gold 5 1⟩, by decide +kernel⟩
    · decide +kernel
  · obtain ⟨reading, -⟩ := goldPair.scan_breaks_off [goldRow 1 5, goldRow 2 5] (some (.decoding .missingMark)) short
    exact reading _ _ rfl (by decide +kernel) (by decide +kernel)

end SeedSearch
