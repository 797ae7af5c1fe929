import SeedSearch.Proofs.Isolation

namespace SeedSearch
open Catalog (Row)
open Scan.Result

namespace Scan.Result

def Failed (part : Scan.Result) : Prop := ∃ f, part.committed = .error f

end Scan.Result

namespace Search

variable {read : Path → Except Refusal (Feed Row)} {limits : Limits} {criteria : List Criterion} {stop : Bool}
  {paths seen rest : List Path} {after : Search} {ending : Option Fault}

-- The files that a search goes through. It goes on to a file as long as those
-- before it find too few seeds and, if it is to stop at the first fault, none
-- of them has failed.
structure Visits (read : Path → Except Refusal (Feed Row)) (limits : Limits) (criteria : List Criterion)
    (stop : Bool) (seen rest : List Path) : Prop where
  wanted : ∀ before path behind, seen = before ++ path :: behind →
    (seedsOf (apart read limits criteria before) : Int) < limits.matchesMax
  sound : ∀ before path behind, seen = before ++ path :: behind → stop = true →
    ∀ part ∈ apart read limits criteria before, ¬part.Failed
  done : rest ≠ [] → limits.matchesMax ≤ seedsOf (apart read limits criteria seen) ∨
    stop = true ∧ ∃ part ∈ apart read limits criteria seen, part.Failed

theorem sound_of_goes {files : List Path} (stops : stop = true)
    (goes : ∀ part ∈ apart read limits criteria files, ∀ f, part.committed = .error f → ¬f.Ends stop) :
    ∀ part ∈ apart read limits criteria files, ¬part.Failed := by
  rintro part member ⟨f, failed⟩
  exact goes part member f failed (Or.inl stops)

theorem mem_apart_append {before behind : List Path} {part : Scan.Result}
    (member : part ∈ apart read limits criteria before) :
    part ∈ apart read limits criteria (before ++ behind) := by
  rw [apart, scansAlone_append]
  exact List.mem_append_left _ member

-- A search is cut off if it is to stop at the first fault and meets one; if not,
-- it records the faults of all the files it goes through.
theorem run_visits (paths : List Path) (ran : run read stop (fresh limits criteria) paths = (after, ending))
    (input : ∀ f, ending = some f → f.ofInput = true) :
    ∃ seen rest, paths = seen ++ rest ∧ Visits read limits criteria stop seen rest ∧
      (ending ≠ none ↔ stop = true ∧ ∃ part ∈ apart read limits criteria seen, part.Failed) ∧
      (ending = none → after.errors = failuresOf seen (apart read limits criteria seen)) := by
  obtain ⟨visited, rest, rfl, shortest⟩ := exists_shortest
    (fun files => seedsOf (apart read limits criteria files)) limits.matchesMax paths
  rcases first_end read limits criteria limits.matchesMax stop visited with
    goes | ⟨before, path, behind, f, rfl, goes, failed, ends⟩
  · obtain ⟨last, gathers, same⟩ := run_shortest shortest goes
    obtain ⟨rfl, rfl⟩ := Prod.mk.inj ((same read fun _ _ => rfl).symm.trans ran)
    refine ⟨visited, rest, rfl, ⟨shortest.needed, ?_, fun more => Or.inl (shortest.enough more)⟩, ?_, fun _ => ?_⟩
    · intro before path behind split stops part member
      exact sound_of_goes stops goes part (split ▸ mem_apart_append member)
    · refine iff_of_false (by simp) ?_
      rintro ⟨stops, part, member, fails⟩
      exact sound_of_goes stops goes part member fails
    · rw [gathers.errors]
      rfl
  · obtain ⟨last, stops, -⟩ := run_ends seeks_fresh shortest.upto goes failed ends
    have cut := stops (behind ++ rest)
    rw [← List.cons_append, ← List.append_assoc] at cut
    obtain ⟨rfl, rfl⟩ := Prod.mk.inj (cut.symm.trans ran)
    have stopping : stop = true := by
      rcases ends with stops | foreign
      · exact stops
      · exact absurd foreign (by rw [← Fault.ofInput_inFile f path, input _ rfl]; decide)
    have broken : ∃ part ∈ apart read limits criteria (before ++ [path]), part.Failed := by
      refine ⟨_, ?_, f, failed⟩
      rw [apart, scansAlone_append]
      exact List.mem_append_right _ List.mem_cons_self
    refine ⟨before ++ [path], behind ++ rest, by simp, ⟨shortest.upto, ?_, fun _ => Or.inr ⟨stopping, broken⟩⟩,
      iff_of_true (by simp) ⟨stopping, broken⟩, by simp⟩
    intro front x more split _ part member
    have inside : front <+: before := by
      rcases List.prefix_concat_iff.mp ⟨x :: more, split.symm⟩ with whole | inside
      · rw [whole] at split
        simp at split
      · exact inside
    obtain ⟨between, rfl⟩ := inside
    exact sound_of_goes stopping goes part (mem_apart_append member)

theorem length_scansAlone (wanted : Int) (files : List Path) :
    (scansAlone read limits criteria wanted files).length = files.length := by
  induction files generalizing wanted with
  | nil => rfl
  | cons path rest ih => simp [scansAlone, ih]

theorem failuresOf_eq_nil_iff (read : Path → Except Refusal (Feed Row)) (limits : Limits)
    (criteria : List Criterion) (files : List Path) : failuresOf files (apart read limits criteria files) = [] ↔
    ∀ part ∈ apart read limits criteria files, ¬part.Failed := by
  have parts : (files.zip (apart read limits criteria files)).map Prod.snd = apart read limits criteria files :=
    List.map_snd_zip (Nat.le_of_eq (length_scansAlone _ _))
  have each (path : Path) (part : Scan.Result) : part.failure? path = none ↔ ¬part.Failed := by
    cases committed : part.committed <;> simp [Scan.Result.failure?, Scan.Result.Failed, committed]
  rw [failuresOf, List.filterMap_eq_nil_iff]
  simp only [each]
  constructor
  · intro sound part member
    obtain ⟨pair, inside, rfl⟩ := List.mem_map.mp (parts ▸ member)
    exact sound pair inside
  · intro sound pair inside
    exact sound pair.2 (parts ▸ List.mem_map_of_mem inside)

end Search

end SeedSearch
