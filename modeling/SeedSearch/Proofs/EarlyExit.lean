import Mathlib.Algebra.Order.BigOperators.Group.List
import SeedSearch.Proofs.Takings

namespace SeedSearch.Tally

def trail (t : Tally) : List Int → List Tally
  | [] => []
  | n :: rest => t.add n :: trail (t.add n) rest

variable {t x : Tally} {n : Int} {quantities : List Int}

theorem length_trail : (t.trail quantities).length = quantities.length := by
  induction quantities generalizing t with
  | nil => rfl
  | cons n rest ih => rw [trail, List.length_cons, List.length_cons, ih]

theorem trail_count {i : Nat} (here : i < (t.trail quantities).length) :
    (t.trail quantities)[i].count = t.count + (quantities.take (i + 1)).sum := by
  induction quantities generalizing t i with
  | nil => cases here
  | cons n rest ih =>
    cases i with
    | zero => simp [trail, add]
    | succ i =>
      have later : i < ((t.add n).trail rest).length := Nat.lt_of_succ_lt_succ here
      calc (t.trail (n :: rest))[i + 1].count
        _ = ((t.add n).trail rest)[i].count := rfl
        _ = t.count + n + (rest.take (i + 1)).sum := ih later
        _ = t.count + ((n :: rest).take (i + 1 + 1)).sum := by rw [List.take_succ_cons, List.sum_cons, Int.add_assoc]

theorem trail_criterion (member : x ∈ t.trail quantities) : x.criterion = t.criterion := by
  induction quantities generalizing t with
  | nil => cases member
  | cons n rest ih =>
    rcases List.mem_cons.mp member with first | later
    · rw [first, add]
    · exact ih (t := t.add n) later

theorem count_le_of_mem_trail (nonneg : ∀ n ∈ quantities, 0 ≤ n) (member : x ∈ t.trail quantities) :
    x.count ≤ t.count + quantities.sum := by
  obtain ⟨i, here, rfl⟩ := List.getElem_of_mem member
  have behind : 0 ≤ (quantities.drop (i + 1)).sum :=
    List.sum_nonneg fun n inside => nonneg n (List.mem_of_mem_drop inside)
  have whole := List.sum_take_add_sum_drop quantities (i + 1)
  rw [trail_count here]
  omega

theorem trail_keeps {P : Tally → Prop} (kept : ∀ x n, x.criterion = t.criterion → 0 ≤ n → P x → P (x.add n))
    (nonneg : ∀ n ∈ quantities, 0 ≤ n) :
    (t :: t.trail quantities).Pairwise fun earlier later => P earlier → P later := by
  induction quantities generalizing t with
  | nil => exact List.pairwise_singleton _ _
  | cons n rest ih =>
    have onward := ih (t := t.add n) kept fun m member => nonneg m (List.mem_cons_of_mem _ member)
    have next : P t → P (t.add n) := kept t n rfl (nonneg n List.mem_cons_self)
    refine List.pairwise_cons.mpr ⟨?_, onward⟩
    intro x member start
    rcases List.mem_cons.mp member with rfl | later
    · exact next start
    · exact (List.pairwise_cons.mp onward).1 x later (next start)

theorem outcome_idle_iff (t : Tally) : t.outcome = .doNothing ↔
    t.criterion.mode = .atLeast ∧ t.criterion.target < t.count := by
  unfold outcome
  cases t.criterion.mode with
  | atLeast => simp
  | lessThan => by_cases below : t.count < t.criterion.target <;> simp [below]
  | equalTo => by_cases below : t.count ≤ t.criterion.target <;> simp [below]

theorem exit_add (more : 0 ≤ n) (exits : t.outcome = .earlyExit) : (t.add n).outcome = .earlyExit := by
  rw [outcome_exit_iff] at exits ⊢
  rcases exits with ⟨mode, past⟩ | ⟨mode, past⟩
  · left
    exact ⟨mode, by simp only [add]; omega⟩
  · right
    exact ⟨mode, by simp only [add]; omega⟩

theorem idle_add (more : 0 ≤ n) (idle : t.outcome = .doNothing) : (t.add n).outcome = .doNothing := by
  rw [outcome_idle_iff] at idle ⊢
  obtain ⟨mode, past⟩ := idle
  exact ⟨mode, by simp only [add]; omega⟩

theorem satisfied_add (mode : t.criterion.mode = .atLeast) (more : 0 ≤ n) (met : t.satisfied = true) :
    (t.add n).satisfied = true := by
  have kept : (t.add n).criterion.mode = .atLeast := mode
  simp only [satisfied_iff, Criterion.Met, mode, kept, CountMode.Holds] at met ⊢
  simp only [add]
  omega

-- What is told of a criterion while quantities are recorded for it: the seed is
-- given up for good, and never one that could still meet the criterion.
structure Decisive (c : Criterion) (quantities : List Int) (start : Tally) (trail : List Tally) : Prop where
  each : trail.length = quantities.length
  final : trail.Pairwise fun earlier later => earlier.outcome = .earlyExit → later.outcome = .earlyExit
  lost : ∀ x ∈ trail, x.outcome = .earlyExit → x.satisfied = false
  below : c.mode = .lessThan → ∀ x ∈ trail, (x.outcome = .earlyExit ↔ x.satisfied = false)
  exact : c.mode = .equalTo → ∀ i (here : i < trail.length),
    (trail[i].outcome = .earlyExit ↔ c.target < (quantities.take (i + 1)).sum)
  patient : c.mode = .atLeast → ∀ x ∈ trail, x.outcome ≠ .earlyExit
  reached : c.mode = .atLeast →
    (start :: trail).Pairwise fun earlier later => earlier.satisfied = true → later.satisfied = true
  idle : c.mode = .atLeast →
    trail.Pairwise fun earlier later => earlier.outcome = .doNothing → later.outcome = .doNothing
  enough : c.mode = .atLeast → ∀ x ∈ trail, x.outcome = .doNothing → x.satisfied = true
  sound : c.Met quantities.sum → ∀ x ∈ trail, x.outcome ≠ .earlyExit

theorem trail_decisive (t : Tally) (quantities : List Int) (nonneg : ∀ n ∈ quantities, 0 ≤ n) :
    Decisive t.criterion quantities t.reset (t.reset.trail quantities) := by
  have same : ∀ x ∈ t.reset.trail quantities, x.criterion = t.criterion :=
    fun x member => trail_criterion (t := t.reset) member
  have total : ∀ x ∈ t.reset.trail quantities, x.count ≤ quantities.sum := by
    intro x member
    have bound := count_le_of_mem_trail nonneg member
    rwa [show t.reset.count = 0 from rfl, Int.zero_add] at bound
  have exits : (t.reset :: t.reset.trail quantities).Pairwise
      fun earlier later => earlier.outcome = .earlyExit → later.outcome = .earlyExit :=
    trail_keeps (fun _ _ _ more exits => exit_add more exits) nonneg
  have idles : (t.reset :: t.reset.trail quantities).Pairwise
      fun earlier later => earlier.outcome = .doNothing → later.outcome = .doNothing :=
    trail_keeps (fun _ _ _ more idle => idle_add more idle) nonneg
  refine { each := length_trail, final := exits.tail, lost := fun x _ => not_satisfied_of_outcome, below := ?_, exact := ?_,
           patient := ?_, reached := ?_, idle := fun _ => idles.tail, enough := ?_, sound := ?_ }
  · intro mode x member
    rw [← same x member] at mode
    simp [outcome_exit_iff, satisfied, mode]
  · intro mode i here
    have own := same _ (List.getElem_mem here)
    rw [outcome_exit_iff, own, mode, trail_count here, show t.reset.count = 0 from rfl, Int.zero_add]
    simp
  · intro mode x member exits
    rw [outcome_exit_iff, same x member, mode] at exits
    simp at exits
  · intro mode
    exact trail_keeps (fun x n own more met => satisfied_add (own ▸ mode) more met) nonneg
  · intro mode x member idle
    obtain ⟨-, past⟩ := (outcome_idle_iff x).mp idle
    rw [satisfied_iff, Criterion.Met, same x member, mode, CountMode.Holds, ← same x member]
    exact Int.le_of_lt past
  · intro met x member exits
    have bound := total x member
    rw [outcome_exit_iff, same x member] at exits
    unfold Criterion.Met at met
    rcases exits with ⟨mode, past⟩ | ⟨mode, past⟩
    · rw [mode, CountMode.Holds] at met
      omega
    · rw [mode, CountMode.Holds] at met
      omega

def pair : Tally := { criterion := { category := .gold, mode := .equalTo, target := 2 }, count := 7 }

-- Nothing is found at first, then as much as is wanted, nothing again and one
-- too many.
theorem overshot_gives_up :
    (∀ n ∈ [0, 2, 0, 1, 0], (0 : Int) ≤ n) ∧
    (pair.reset.trail [0, 2, 0, 1, 0]).map (·.outcome) =
      [.increment, .increment, .increment, .earlyExit, .earlyExit] ∧
    Decisive pair.criterion [0, 2, 0, 1, 0] pair.reset (pair.reset.trail [0, 2, 0, 1, 0]) := by
  have nonneg : ∀ n ∈ [0, 2, 0, 1, 0], (0 : Int) ≤ n := by decide
  exact ⟨nonneg, by decide, trail_decisive pair [0, 2, 0, 1, 0] nonneg⟩

end SeedSearch.Tally
