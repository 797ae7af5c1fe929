import Mathlib.Data.List.SplitBy
import SeedSearch.Catalog.Row

namespace SeedSearch
open Catalog (Row)

def seedRuns (rows : List Row) : List (List Row) := rows.splitBy fun a b => a.seed == b.seed

-- Runs that each hold one seed, another one than the run before them.
inductive Parted : Option Int → List (List Row) → Prop where
  | nil : Parted before []
  | cons (full : run ≠ []) (one : ∀ r ∈ run, r.seed = seed) (new : before ≠ some seed)
      (later : Parted (some seed) rest) : Parted before (run :: rest)

variable {before : Option Int} {seed : Int} {run rows : List Row} {runs front rest : List (List Row)}

theorem parted_front (parted : Parted before (front ++ rest)) : Parted before front := by
  induction front generalizing before with
  | nil => exact .nil
  | cons run more ih =>
    cases parted with
    | cons full one new later => exact .cons full one new (ih later)

theorem Parted.seed_ne (parted : Parted (some seed) runs) : ∀ r ∈ runs.flatten.head?, r.seed ≠ seed := by
  cases parted with
  | nil => simp
  | cons full one new later =>
    obtain ⟨first, more, rfl⟩ := List.exists_cons_of_ne_nil full
    simpa [one first (by simp), eq_comm] using new

theorem isChain_of_seed (one : ∀ r ∈ run, r.seed = seed) : run.IsChain fun a b => (a.seed == b.seed) = true := by
  induction run with
  | nil => exact .nil
  | cons r more ih =>
    refine List.isChain_cons.mpr ⟨?_, ih fun x member => one x (by simp [member])⟩
    intro x next
    rw [one r (by simp), one x (by simp [List.mem_of_mem_head? next])]
    simp

theorem seedRuns_append (full : run ≠ []) (one : ∀ r ∈ run, r.seed = seed)
    (other : ∀ r ∈ rows.head?, r.seed ≠ seed) : seedRuns (run ++ rows) = run :: seedRuns rows := by
  have border : ∀ x ∈ run.getLast?, ∀ y ∈ rows.head?, (x.seed == y.seed) = false := by
    intro x last y first
    rw [one x (List.mem_of_getLast? last), beq_eq_false_iff_ne]
    exact (other y first).symm
  rw [seedRuns, List.splitBy_append border, List.splitBy_of_isChain full (isChain_of_seed one)]
  rfl

theorem seedRuns_flatten (parted : Parted before runs) : seedRuns runs.flatten = runs := by
  induction parted with
  | nil => rfl
  | cons full one new later ih => rw [List.flatten_cons, seedRuns_append full one later.seed_ne, ih]

theorem parted_seedRuns (rows : List Row) (new : ∀ r ∈ rows.head?, before ≠ some r.seed) :
    Parted before (seedRuns rows) := by
  induction len : rows.length using Nat.strong_induction_on generalizing rows before with
  | _ n ih =>
    cases rows with
    | nil => exact .nil
    | cons r more =>
      let run := r :: more.takeWhile (·.seed = r.seed)
      let rest := more.dropWhile (·.seed = r.seed)
      have split : r :: more = run ++ rest := by simp [run, rest]
      have one : ∀ x ∈ run, x.seed = r.seed := by
        intro x member
        rcases List.mem_cons.mp member with rfl | taken
        · rfl
        · exact of_decide_eq_true (List.all_eq_true.mp List.all_takeWhile x taken)
      have other : ∀ x ∈ rest.head?, x.seed ≠ r.seed := by
        intro x first
        have fails := List.head?_dropWhile_not (fun x : Row => decide (x.seed = r.seed)) more
        simp_all [rest]
      have shorter : rest.length < n := by
        have le : rest.length ≤ more.length := (List.dropWhile_sublist _).length_le
        simp only [List.length_cons] at len
        omega
      rw [split, seedRuns_append (by simp [run]) one other]
      refine .cons (by simp [run]) one (new r (by simp)) (ih _ shorter rest ?_ rfl)
      intro x first
      simpa [eq_comm] using other x first

end SeedSearch
