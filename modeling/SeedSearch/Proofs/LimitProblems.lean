import Mathlib.Data.List.Forall2
import SeedSearch.Limits

namespace SeedSearch.Limits

def Field.preset : Field → Int
  | seedMin | depthMin => 1
  | seedMax => 0xffffffff
  | depthMax => 26
  | matchesMax => 10

def Given.Strays (g : Given) (f : Field) : Prop := ∃ n ∈ f.of g, ¬ (f.low ≤ n ∧ n ≤ f.high)

instance (g : Given) (f : Field) : Decidable (g.Strays f) := inferInstanceAs (Decidable (∃ n ∈ f.of g, _))

inductive Given.Blames (g : Given) (f : Field) : String → Prop
  | low {n : Int} (given : f.of g = some n) (below : n < f.low) :
      Blames g f (f.name ++ ": " ++ s!"Input should be greater than or equal to {f.low}")
  | high {n : Int} (given : f.of g = some n) (above : f.high < n) :
      Blames g f (f.name ++ ": " ++ s!"Input should be less than or equal to {f.high}")

def Given.value (g : Given) (f : Field) : Int := (f.of g).getD f.preset

structure Range where
  what : String
  least : Field
  greatest : Field
  deriving DecidableEq, Repr

def Range.all : List Range := [⟨"seed", .seedMin, .seedMax⟩, ⟨"depth", .depthMin, .depthMax⟩]

def Given.Inverts (g : Given) (r : Range) : Prop := g.value r.greatest < g.value r.least

instance (g : Given) (r : Range) : Decidable (g.Inverts r) := inferInstanceAs (Decidable (_ < _))

def Given.inversion (g : Given) (r : Range) : String :=
  s!"{r.what} range is inverted: {g.value r.least} > {g.value r.greatest}"

variable {g : Given} {f : Field} {limits : Limits}

theorem check_eq_none_iff {low high n : Int} : check low high n = none ↔ low ≤ n ∧ n ≤ high := by
  unfold check
  by_cases below : n < low
  · rw [if_pos below]
    simp
    omega
  · rw [if_neg below]
    by_cases above : high < n
    · simp [above]
    · simp [above]
      omega

def fieldProblem (g : Given) (f : Field) : Option Problem :=
  (f.of g).bind fun n => (check f.low f.high n).map (.field f)

theorem fieldProblem_eq_none_iff : fieldProblem g f = none ↔ ¬ g.Strays f := by
  simp [fieldProblem, Given.Strays, check_eq_none_iff]

theorem blames_of_fieldProblem {problem : Problem} (found : fieldProblem g f = some problem) :
    g.Blames f problem.message := by
  obtain ⟨n, given, found⟩ := Option.bind_eq_some_iff.mp found
  obtain ⟨why, checked, rfl⟩ := Option.map_eq_some_iff.mp found
  unfold check at checked
  split at checked
  · rename_i below
    cases checked
    exact .low given below
  · split at checked
    · rename_i above
      cases checked
      exact .high given above
    · cases checked

theorem blames_each (g : Given) (fields : List Field) :
    List.Forall₂ g.Blames (fields.filter (g.Strays ·)) ((fields.filterMap (fieldProblem g)).map Problem.message) := by
  induction fields with
  | nil => exact .nil
  | cons f fields ih =>
    cases found : fieldProblem g f with
    | none =>
      have clear : ¬ g.Strays f := fieldProblem_eq_none_iff.mp found
      rwa [List.filterMap_cons_none found, List.filter_cons_of_neg (by simpa using clear)]
    | some problem =>
      have strays : g.Strays f := by
        apply Classical.byContradiction
        intro clear
        rw [fieldProblem_eq_none_iff.mpr clear] at found
        cases found
      rw [List.filterMap_cons_some found, List.filter_cons_of_pos (by simpa using strays), List.map_cons]
      exact .cons (blames_of_fieldProblem found) ih

theorem fieldProblems_eq_nil_iff : fieldProblems g = [] ↔ ∀ f, ¬ g.Strays f := by
  have every (f : Field) : f ∈ Field.all := by cases f <;> decide
  have none : fieldProblems g = [] ↔ ∀ f ∈ Field.all, fieldProblem g f = none := List.filterMap_eq_nil_iff
  simp only [none, every, forall_const, fieldProblem_eq_none_iff]

theorem fill_inversions (g : Given) : (fill g).inversions =
    (Range.all.filter (g.Inverts ·)).map fun r => (r.what, g.value r.least, g.value r.greatest) := by
  have seeds : (fill g).seedMax < (fill g).seedMin ↔ g.Inverts ⟨"seed", .seedMin, .seedMax⟩ := Iff.rfl
  have depths : (fill g).depthMax < (fill g).depthMin ↔ g.Inverts ⟨"depth", .depthMin, .depthMax⟩ := Iff.rfl
  simp only [inversions, Range.all, seeds, depths, List.filter_cons, decide_eq_true_eq, List.filter_nil]
  split <;> split <;> rfl

theorem build_ordered (clear : ∀ f, ¬ g.Strays f) (ordered : ∀ r ∈ Range.all, ¬ g.Inverts r) : build g = .ok (fill g) := by
  have none : (fill g).inversions = [] := by
    rw [fill_inversions, List.map_eq_nil_iff, List.filter_eq_nil_iff]
    simpa using ordered
  simp only [build, fieldProblems_eq_nil_iff.mpr clear, none]

theorem build_inverted (clear : ∀ f, ¬ g.Strays f) (inverted : ∃ r ∈ Range.all, g.Inverts r) :
    build g = .error [.inverted (fill g).inversions] := by
  have some : (fill g).inversions ≠ [] := by
    rw [fill_inversions, ne_eq, List.map_eq_nil_iff, List.filter_eq_nil_iff]
    simpa using inverted
  unfold build
  rw [fieldProblems_eq_nil_iff.mpr clear]
  dsimp only
  split
  · rename_i none
    exact absurd none some
  · rfl

theorem build_strays (strays : ∃ f, g.Strays f) : build g = .error (fieldProblems g) := by
  have some : fieldProblems g ≠ [] := by
    intro none
    obtain ⟨f, strays⟩ := strays
    exact fieldProblems_eq_nil_iff.mp none f strays
  unfold build
  split
  · rename_i none
    exact absurd none some
  · rfl

theorem build_eq_ok_iff : build g = .ok limits ↔ (∀ f, ¬ g.Strays f) ∧ (∀ r ∈ Range.all, ¬ g.Inverts r) ∧
    limits = ⟨g.value .seedMin, g.value .seedMax, g.value .depthMin, g.value .depthMax, g.value .matchesMax⟩ := by
  constructor
  · intro built
    have clear : ∀ f, ¬ g.Strays f := by
      intro f strays
      rw [build_strays ⟨f, strays⟩] at built
      cases built
    have ordered : ∀ r ∈ Range.all, ¬ g.Inverts r := by
      intro r member inverts
      rw [build_inverted clear ⟨r, member, inverts⟩] at built
      cases built
    rw [build_ordered clear ordered] at built
    exact ⟨clear, ordered, (Except.ok.inj built).symm⟩
  · rintro ⟨clear, ordered, rfl⟩
    exact build_ordered clear ordered

theorem build_error_iff : (∃ ps, build g = .error ps) ↔ (∃ f, g.Strays f) ∨ ∃ r ∈ Range.all, g.Inverts r := by
  constructor
  · intro ⟨ps, failed⟩
    apply Classical.byContradiction
    intro fine
    obtain ⟨clear, ordered⟩ := not_or.mp fine
    rw [build_ordered (fun f strays => clear ⟨f, strays⟩) fun r member inverts => ordered ⟨r, member, inverts⟩] at failed
    cases failed
  · intro bad
    by_cases strays : ∃ f, g.Strays f
    · exact ⟨_, build_strays strays⟩
    · exact ⟨_, build_inverted (not_exists.mp strays) (bad.resolve_left strays)⟩

theorem value_in_range (clear : ∀ f, ¬ g.Strays f) (f : Field) : f.low ≤ g.value f ∧ g.value f ≤ f.high := by
  rw [Given.value]
  cases given : f.of g with
  | none => cases f <;> decide
  | some n =>
    apply Classical.byContradiction
    exact fun strays => clear f ⟨n, given, strays⟩

theorem matchesMax_bounds (built : build g = .ok limits) : 1 ≤ limits.matchesMax ∧ limits.matchesMax ≤ 255 := by
  obtain ⟨clear, -, rfl⟩ := build_eq_ok_iff.mp built
  exact value_in_range clear .matchesMax

theorem message_inverted (g : Given) : (Problem.inverted (fill g).inversions).message =
    "; ".intercalate ((Range.all.filter (g.Inverts ·)).map g.inversion) := by
  rw [fill_inversions, Problem.message, List.map_map]
  rfl

-- All bounds that stray are named together, in the order of the fields; all ranges
-- that are inverted are named together, but only where no bound strays.
theorem build_names_problems (g : Given) :
    (∀ limits, build g = .ok limits ↔
      (∀ f, ¬ g.Strays f) ∧ (∀ r ∈ Range.all, ¬ g.Inverts r) ∧
        limits = ⟨g.value .seedMin, g.value .seedMax, g.value .depthMin, g.value .depthMax, g.value .matchesMax⟩) ∧
    ((∃ f, g.Strays f) → ∃ problems, build g = .error problems ∧
      List.Forall₂ g.Blames (Field.all.filter (g.Strays ·)) (problems.map Problem.message)) ∧
    ((∀ f, ¬ g.Strays f) → (∃ r ∈ Range.all, g.Inverts r) → ∃ problems, build g = .error problems ∧
      problems.map Problem.message = ["; ".intercalate ((Range.all.filter (g.Inverts ·)).map g.inversion)]) := by
  refine ⟨?_, ?_, ?_⟩
  · intro limits
    exact build_eq_ok_iff
  · intro strays
    exact ⟨_, build_strays strays, blames_each g Field.all⟩
  · intro clear inverted
    exact ⟨_, build_inverted clear inverted, congrArg (fun message => [message]) (message_inverted g)⟩

-- A bound that strays hides a range that is inverted between bounds of its own.
theorem build_hides_inversion :
    let g : Given := { seedMin := some 0, depthMin := some 20, depthMax := some 5 }
    g.Inverts ⟨"depth", .depthMin, .depthMax⟩ ∧ ¬ g.Strays .depthMin ∧ ¬ g.Strays .depthMax ∧
      build g = .error [.field .seedMin (.below 1)] := by
  decide

end SeedSearch.Limits
