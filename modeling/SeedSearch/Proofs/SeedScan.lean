import SeedSearch.Proofs.Takings
import SeedSearch.Scan

namespace SeedSearch
open Catalog (Row)
open Criterion

namespace Query

def Alike (p q : Query) : Prop := p.resetCounts = q.resetCounts

theorem resetCounts_tallies (q : Query) : q.resetCounts.tallies = tallied q.criteria [] := by
  simp [resetCounts, criteria, tallied_nil, Tally.reset]

theorem resetCounts_criteria (q : Query) : q.resetCounts.criteria = q.criteria := by
  simp [criteria, resetCounts, Tally.reset]

theorem alike_iff {p q : Query} : p.Alike q ↔
    p.limits = q.limits ∧ p.criteria = q.criteria ∧ p.successes = q.successes ∧ p.results = q.results := by
  unfold Alike
  constructor
  · intro same
    have limits : p.resetCounts.limits = q.resetCounts.limits := by rw [same]
    have criteria : p.resetCounts.criteria = q.resetCounts.criteria := by rw [same]
    have successes : p.resetCounts.successes = q.resetCounts.successes := by rw [same]
    have results : p.resetCounts.results = q.resetCounts.results := by rw [same]
    rw [resetCounts_criteria, resetCounts_criteria] at criteria
    exact ⟨limits, criteria, successes, results⟩
  · rintro ⟨limits, criteria, successes, results⟩
    have tallies : p.resetCounts.tallies = q.resetCounts.tallies := by
      rw [resetCounts_tallies, resetCounts_tallies, criteria]
    cases p
    cases q
    simp_all [resetCounts]

theorem inBounds_of_limits {p q : Query} (same : p.limits = q.limits) : p.inBounds = q.inBounds := by
  funext r
  rw [Query.inBounds, Query.inBounds, same]

theorem Alike.inBounds {p q : Query} (same : p.Alike q) : p.inBounds = q.inBounds :=
  inBounds_of_limits (alike_iff.mp same).1

theorem Alike.isComplete {p q : Query} (same : p.Alike q) : p.isComplete = q.isComplete := by
  obtain ⟨limits, -, successes, -⟩ := alike_iff.mp same
  rw [Query.isComplete, Query.isComplete, Query.target, Query.target, limits, successes]

theorem Alike.recount {p q : Query} (same : p.Alike q) (rows : List Row) :
    Query.Alike { p with tallies := tallied q.criteria rows } q := by
  obtain ⟨limits, -, successes, results⟩ := alike_iff.mp same
  exact alike_iff.mpr ⟨limits, tallied_criteria, successes, results⟩

variable {q : Query} {cs : List Criterion} {before : List Row} {r : Row} {outcome : Outcome}

theorem evaluate_untaken (counts : q.tallies = tallied cs before)
    (untaken : outcomeAt cs before r = none) : q.evaluate r = (q, .ok none) := by
  simp [evaluate, counts, takeRow_tallied, untaken]

theorem evaluate_taken (counts : q.tallies = tallied cs before)
    (taken : outcomeAt cs before r = some outcome) :
    q.evaluate r = ({ q with tallies := tallied cs (before ++ [r]) },
      r.object.map fun object =>
        some { seed := r.seed, depth := r.depth, object, outcome, vault := r.vault, carriedBy := r.carriedBy }) := by
  simp [evaluate, counts, takeRow_tallied, taken]

theorem allSatisfied_iff (counts : q.tallies = tallied cs before) :
    q.allSatisfied = true ↔ ∀ i (here : i < cs.length), cs[i].Met (share cs before i) := by
  simp only [allSatisfied, counts, List.all_eq_true, Tally.satisfied_iff]
  constructor
  · intro all i here
    exact all _ (List.mem_mapIdx.mpr ⟨i, here, rfl⟩)
  · intro all t member
    obtain ⟨i, here, rfl⟩ := List.mem_mapIdx.mp member
    exact all i here

end Query

namespace Scan

variable {q : Query} {run : List Row} {s : Scan} {r : Row} {seed : Int}

theorem step_open (bounds : s.query.inBounds r = true) (same : s.scratch.seed = some r.seed) :
    s.step r = if s.scratch.abandoned then (s, none) else
      match s.query.evaluate r with
      | (query, .error f) => ({ s with query }, some (.fault f))
      | (query, .ok none) => ({ s with query }, none)
      | (query, .ok (some m)) => (record { s with query } m, none) := by
  simp only [step, bounds, enter, same]
  rfl

-- A seed not ruled out so far: every taken row is counted and buffered, and
-- `satisfied` is set by the last taken row at the latest.
structure Live (cs : List Criterion) (run : List Row) (s : Scan) : Prop where
  kept : s.scratch.abandoned = false
  counts : s.query.tallies = tallied cs run
  buffer : s.scratch.buffer = found cs run
  latched : Qualifies cs run → s.scratch.satisfied = true
  taken : s.scratch.satisfied = true → ∃ r ∈ run, (taker cs r).isSome = true

structure Sifted (q : Query) (seed : Int) (run : List Row) (s : Scan) : Prop where
  seed : s.scratch.seed = some seed
  frame : s.query.Alike q
  sound : faultIn q.criteria run = none
  lost : RuledOut q.criteria run → s.scratch.abandoned = true
  live : ¬ RuledOut q.criteria run → Live q.criteria run s

namespace Sifted

theorem bounds (h : Sifted q seed run s) (bounds : q.inBounds r = true) : s.query.inBounds r = true := by
  rw [h.frame.inBounds, bounds]

theorem step_lost (h : Sifted q seed run s) (out : RuledOut q.criteria run)
    (bounds : q.inBounds r = true) (same : r.seed = seed) :
    s.step r = (s, none) ∧ Sifted q seed (run ++ [r]) s := by
  have still : RuledOut q.criteria (run ++ [r]) := ruledOut_append out
  refine ⟨by simp [step_open (h.bounds bounds) (same ▸ h.seed), h.lost out], h.seed, h.frame, ?_, ?_, ?_⟩
  · rw [faultIn_of_ruledOut out, h.sound]
  · exact fun _ => h.lost out
  · exact fun live => absurd still live

theorem step_untaken (h : Sifted q seed run s) (live : ¬ RuledOut q.criteria run)
    (untaken : outcomeAt q.criteria run r = none) (bounds : q.inBounds r = true) (same : r.seed = seed) :
    s.step r = (s, none) ∧ Sifted q seed (run ++ [r]) s := by
  obtain ⟨kept, counts, buffer, latched, taken⟩ := h.live live
  have nobody : taker q.criteria r = none := untaken_of_outcomeAt untaken
  have nothing : taking q.criteria run r = [] := by simp [taking, untaken]
  have still : ¬ RuledOut q.criteria (run ++ [r]) := by
    rw [ruledOut_snoc, untaken]
    simpa using live
  refine ⟨?_, h.seed, h.frame, ?_, fun out => absurd out still, fun _ => ⟨kept, ?_, ?_, ?_, ?_⟩⟩
  · simp [step_open (h.bounds bounds) (same ▸ h.seed), kept, Query.evaluate_untaken counts untaken]
  · rw [faultIn_snoc h.sound live, nothing, List.findSome?_nil]
  · rw [counts, tallied_untaken nobody]
  · rw [buffer, found_snoc, nothing, List.filterMap_nil, List.append_nil]
  · rintro ⟨⟨x, member, takes⟩, met⟩
    apply latched
    refine ⟨⟨x, ?_, takes⟩, fun i here => share_untaken nobody ▸ met i here⟩
    rcases List.mem_append.mp member with before | last
    · exact before
    · rw [List.mem_singleton.mp last, nobody] at takes
      cases takes
  · intro satisfied
    obtain ⟨x, member, takes⟩ := taken satisfied
    exact ⟨x, List.mem_append_left _ member, takes⟩

theorem step_fault {outcome : Outcome} {f : Fault} (h : Sifted q seed run s) (live : ¬ RuledOut q.criteria run)
    (taken : outcomeAt q.criteria run r = some outcome) (broken : r.object = .error f)
    (bounds : q.inBounds r = true) (same : r.seed = seed) :
    ∃ after, s.step r = (after, some (.fault f)) ∧ after.query.Alike q := by
  refine ⟨{ s with query := { s.query with tallies := tallied q.criteria (run ++ [r]) } }, ?_, h.frame.recount _⟩
  simp [step_open (h.bounds bounds) (same ▸ h.seed), (h.live live).kept,
    Query.evaluate_taken (h.live live).counts taken, broken, Except.map]

theorem step_exit {object : Object} (h : Sifted q seed run s) (live : ¬ RuledOut q.criteria run)
    (taken : outcomeAt q.criteria run r = some .earlyExit) (known : r.object = .ok object)
    (bounds : q.inBounds r = true) (same : r.seed = seed) :
    ∃ after, s.step r = (after, none) ∧ Sifted q seed (run ++ [r]) after := by
  have out : RuledOut q.criteria (run ++ [r]) := ruledOut_snoc.mpr (Or.inr taken)
  refine ⟨?_, ?_, ?_, ?_, ?_, ?_, ?_⟩
  · exact { s with
      query := { s.query with tallies := tallied q.criteria (run ++ [r]) }
      scratch := s.scratch.abandon
      notes := .abandoned r.seed r.depth :: s.notes }
  · simp [step_open (h.bounds bounds) (same ▸ h.seed), (h.live live).kept,
      Query.evaluate_taken (h.live live).counts taken, known, Except.map, record, Outcome.abandons]
  · exact h.seed
  · exact h.frame.recount _
  · rw [faultIn_snoc h.sound live]
    simp [taking, taken, Taking.fault?, known]
  · exact fun _ => rfl
  · exact fun live => absurd out live

theorem step_match {outcome : Outcome} {object : Object} (h : Sifted q seed run s)
    (live : ¬ RuledOut q.criteria run) (taken : outcomeAt q.criteria run r = some outcome)
    (goes : outcome ≠ .earlyExit) (known : r.object = .ok object)
    (bounds : q.inBounds r = true) (same : r.seed = seed) :
    ∃ after, s.step r = (after, none) ∧ Sifted q seed (run ++ [r]) after := by
  obtain ⟨kept, counts, buffer, latched, earlier⟩ := h.live live
  have takes : (taker q.criteria r).isSome = true := isSome_of_outcomeAt taken
  have still : ¬ RuledOut q.criteria (run ++ [r]) := by
    rw [ruledOut_snoc, taken]
    simpa [live] using goes
  let query : Query := { s.query with tallies := tallied q.criteria (run ++ [r]) }
  let scratch := s.scratch.push { seed := r.seed, depth := r.depth, object, outcome, vault := r.vault, carriedBy := r.carriedBy }
  refine ⟨{ s with query, scratch := { scratch with satisfied := scratch.satisfied || query.allSatisfied } },
    ?_, h.seed, h.frame.recount _, ?_, fun out => absurd out still, fun _ => ⟨kept, rfl, ?_, ?_, ?_⟩⟩
  · simp [step_open (h.bounds bounds) (same ▸ h.seed), kept, Query.evaluate_taken counts taken, known,
      Except.map, record, Outcome.abandons, goes, query, scratch]
  · rw [faultIn_snoc h.sound live]
    simp [taking, taken, Taking.fault?, known]
  · simp [scratch, Scratch.push, buffer, found_snoc, taking, taken, Taking.match?, known, Except.toOption]
  · rintro ⟨-, met⟩
    have all : query.allSatisfied = true := (Query.allSatisfied_iff rfl).mpr met
    simp [all]
  · intro _
    exact ⟨r, by simp, takes⟩

theorem step_sound (h : Sifted q seed run s) (sound : faultIn q.criteria (run ++ [r]) = none)
    (bounds : q.inBounds r = true) (same : r.seed = seed) :
    ∃ after, s.step r = (after, none) ∧ Sifted q seed (run ++ [r]) after := by
  by_cases out : RuledOut q.criteria run
  · exact ⟨s, h.step_lost out bounds same⟩
  · cases taken : outcomeAt q.criteria run r with
    | none => exact ⟨s, h.step_untaken out taken bounds same⟩
    | some outcome =>
      cases known : r.object with
      | error f =>
        rw [faultIn_snoc h.sound out] at sound
        simp [taking, taken, Taking.fault?, known] at sound
      | ok object =>
        by_cases exits : outcome = .earlyExit
        · exact h.step_exit out (exits ▸ taken) known bounds same
        · exact h.step_match out taken exits known bounds same

theorem step_broken {f : Fault} (h : Sifted q seed run s) (fault : faultIn q.criteria (run ++ [r]) = some f)
    (bounds : q.inBounds r = true) (same : r.seed = seed) :
    ∃ after, s.step r = (after, some (.fault f)) ∧ after.query.Alike q := by
  have live : ¬ RuledOut q.criteria run := by
    intro out
    rw [faultIn_of_ruledOut out, h.sound] at fault
    cases fault
  rw [faultIn_snoc h.sound live] at fault
  cases taken : outcomeAt q.criteria run r with
  | none => simp [taking, taken] at fault
  | some outcome =>
    cases known : r.object with
    | ok object => simp [taking, taken, Taking.fault?, known] at fault
    | error g =>
      have same' : g = f := by simpa [taking, taken, Taking.fault?, known] using fault
      exact h.step_fault live taken (same' ▸ known) bounds same

variable {rows : List Row}

theorem run_sound (h : Sifted q seed run s) (sound : faultIn q.criteria (run ++ rows) = none)
    (bounds : ∀ r ∈ rows, q.inBounds r = true) (same : ∀ r ∈ rows, r.seed = seed) :
    ∃ after, s.run rows = (after, none) ∧ Sifted q seed (run ++ rows) after := by
  induction rows generalizing run s with
  | nil => exact ⟨s, rfl, by simpa using h⟩
  | cons r rest ih =>
    have split : run ++ r :: rest = (run ++ [r]) ++ rest := by simp
    have here : faultIn q.criteria (run ++ [r]) = none := by
      rw [Option.eq_none_iff_forall_ne_some]
      intro f fault
      rw [split, faultIn_append fault] at sound
      cases sound
    obtain ⟨middle, stepped, sifted⟩ := h.step_sound here (bounds r (by simp)) (same r (by simp))
    obtain ⟨after, ran, done⟩ := ih sifted (split ▸ sound) (fun x member => bounds x (by simp [member]))
      (fun x member => same x (by simp [member]))
    exact ⟨after, by simp [Scan.run, stepped, ran], split ▸ done⟩

theorem run_broken {f : Fault} (h : Sifted q seed run s) (fault : faultIn q.criteria (run ++ rows) = some f)
    (bounds : ∀ r ∈ rows, q.inBounds r = true) (same : ∀ r ∈ rows, r.seed = seed) :
    ∃ after, s.run rows = (after, some (.fault f)) ∧ after.query.Alike q := by
  induction rows generalizing run s with
  | nil =>
    rw [List.append_nil, h.sound] at fault
    cases fault
  | cons r rest ih =>
    have split : run ++ r :: rest = (run ++ [r]) ++ rest := by simp
    cases here : faultIn q.criteria (run ++ [r]) with
    | none =>
      obtain ⟨middle, stepped, sifted⟩ := h.step_sound here (bounds r (by simp)) (same r (by simp))
      obtain ⟨after, ran, alike⟩ := ih sifted (split ▸ fault) (fun x member => bounds x (by simp [member]))
        (fun x member => same x (by simp [member]))
      exact ⟨after, by simp [Scan.run, stepped, ran], alike⟩
    | some g =>
      have first : g = f := by
        rw [split, faultIn_append here] at fault
        exact Option.some.inj fault
      obtain ⟨after, stepped, alike⟩ := h.step_broken here (bounds r (by simp)) (same r (by simp))
      exact ⟨after, by simp [Scan.run, stepped, first], alike⟩

end Sifted

end Scan

end SeedSearch
