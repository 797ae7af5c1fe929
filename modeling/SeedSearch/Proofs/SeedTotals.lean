import Mathlib.Data.List.Chain
import SeedSearch.Report

namespace SeedSearch.Report

variable {found run more : List Match} {block : List Match} {blocks : List (List Match)}
  {last depth : Option Int} {seed : Int}

theorem filter_shown {shown : Prop} [Decidable shown] (line : Line) (other : line.isSeed = false) :
    (if shown then [line] else []).filter Line.isSeed = [] := by
  split <;> simp [other]

theorem seeds_of_groupFrom (verbosity : Int) (last depth : Option Int) (found : List Match) :
    ((groupFrom verbosity last depth found).filter Line.isSeed).length = (seedsFrom last found).length := by
  induction found generalizing last depth with
  | nil => rfl
  | cons m rest ih =>
    simp only [groupFrom, List.filter_append, List.length_append, ih, filter_shown (.depth _) rfl,
      filter_shown (.object _) rfl]
    by_cases same : last = some m.seed
    · simp [seedsFrom, same]
    · have named : [Line.seed m.seed].filter Line.isSeed = [.seed m.seed] := rfl
      simp [seedsFrom, same, named, Nat.add_comm]

def totalLine (seeds : Nat) : String := s!"...{seeds} matches found."

-- However much is shown above it, the closing line tells how many seeds there are.
theorem matchText_total (r : Report) (verbosity : Int) :
    ∃ above, matchText verbosity r.found = above ++ "\n" ++ totalLine r.seeds.length := by
  have total := seeds_of_groupFrom verbosity none none r.found
  have closing : "\n".intercalate ["", totalLine r.seeds.length] = "\n" ++ totalLine r.seeds.length := by
    simp [String.intercalate_cons_cons]
  simp only [matchText, matchLines, group, total]
  generalize (if r.found.isEmpty then [] else ["Matches:", ""]) ++
    (groupFrom verbosity none none r.found).map Line.text = lines
  change ∃ above, "\n".intercalate (lines ++ ["", totalLine r.seeds.length]) = _
  by_cases none : lines = []
  · exact ⟨"", by simp [none, closing]⟩
  · refine ⟨"\n".intercalate lines ++ "\n", ?_⟩
    rw [String.intercalate_append_of_ne_nil none (by simp), closing, ← String.append_assoc]

-- Matches that all stand under one seed are listed as that seed once, and not
-- again behind a match of the same seed.
theorem seedsFrom_run (one : ∀ m ∈ run, m.seed = seed) :
    seedsFrom (some seed) (run ++ more) = seedsFrom (some seed) more := by
  induction run with
  | nil => rfl
  | cons m rest ih =>
    rw [List.cons_append, seedsFrom, one m List.mem_cons_self, if_pos rfl]
    exact ih fun x member => one x (List.mem_cons_of_mem _ member)

theorem seedsFrom_block (full : block ≠ []) (one : ∀ m ∈ block, m.seed = seed) : seedsFrom last (block ++ more) =
    if last = some seed then seedsFrom last more else seed :: seedsFrom (some seed) more := by
  obtain ⟨m, rest, rfl⟩ := List.exists_cons_of_ne_nil full
  have first : m.seed = seed := one m List.mem_cons_self
  have later : ∀ x ∈ rest, x.seed = seed := fun x member => one x (List.mem_cons_of_mem _ member)
  rw [List.cons_append, seedsFrom, first]
  split
  · rename_i same
    rw [same, seedsFrom_run later]
  · rw [seedsFrom_run later]

def Apart (a b : List Match) : Prop := ∀ x ∈ a, ∀ y ∈ b, x.seed ≠ y.seed

-- Blocks of one seed each are as many seeds, less those that follow a block of
-- the same seed.
theorem length_seedsFrom (last : Option Int) (single : ∀ b ∈ blocks, b ≠ [] ∧ ∃ seed, ∀ m ∈ b, m.seed = seed) :
    (seedsFrom last blocks.flatten).length ≤ blocks.length ∧
    ((seedsFrom last blocks.flatten).length = blocks.length ↔
      (∀ b ∈ blocks.head?, ∀ x ∈ b, last ≠ some x.seed) ∧ blocks.IsChain Apart) := by
  induction blocks generalizing last with
  | nil => simp [seedsFrom]
  | cons b rest ih =>
    obtain ⟨full, seed, one⟩ := single b List.mem_cons_self
    have others : ∀ b ∈ rest, b ≠ [] ∧ ∃ seed, ∀ m ∈ b, m.seed = seed :=
      fun x member => single x (List.mem_cons_of_mem _ member)
    obtain ⟨first, more, rfl⟩ := List.exists_cons_of_ne_nil full
    rw [List.flatten_cons, seedsFrom_block full one, List.length_cons]
    by_cases same : last = some seed
    · rw [if_pos same]
      obtain ⟨bound, -⟩ := ih last others
      refine ⟨Nat.le_succ_of_le bound, ?_, ?_⟩
      · intro all
        omega
      · rintro ⟨new, -⟩
        have other := new _ rfl first List.mem_cons_self
        rw [one first List.mem_cons_self] at other
        exact absurd same other
    · rw [if_neg same, List.length_cons]
      obtain ⟨bound, exactly⟩ := ih (some seed) others
      have new : ∀ b ∈ ((first :: more) :: rest).head?, ∀ x ∈ b, last ≠ some x.seed := by
        rintro _ ⟨⟩ x member
        rwa [one x member]
      have next : (∀ b ∈ rest.head?, ∀ x ∈ b, some seed ≠ some x.seed) ↔
          ∀ b ∈ rest.head?, Apart (first :: more) b := by
        constructor
        · intro other b here x member y inside same
          rw [one x member] at same
          exact other b here y inside (congrArg some same)
        · intro apart b here x inside same
          apply apart b here first List.mem_cons_self x inside
          rw [one first List.mem_cons_self]
          exact Option.some.inj same
      refine ⟨Nat.succ_le_succ bound, ?_⟩
      rw [Nat.add_right_cancel_iff, exactly, next, List.isChain_cons, and_iff_right new]

end SeedSearch.Report
