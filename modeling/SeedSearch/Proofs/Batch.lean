import SeedSearch.Proofs.Overruns

namespace SeedSearch.Criterion

variable {cs earlier : List Criterion} {category : Category} {depth : Int} {tokens : List String}
  {occs : List (Category × List String)} {given : Terms}

def repeats (cs : List Criterion) : List Criterion :=
  cs.zipIdx.filterMap fun (c, i) => if c ∈ cs.take i then some c else none

def refusals (depth : Int) (o : Category × List String) : List TermProblem :=
  match compileTokens o.1 o.2 depth with
  | .error (.problems ps) => ps
  | _ => []

theorem duplicatesAfter_eq (earlier cs : List Criterion) : duplicatesAfter earlier cs =
    (cs.zipIdx earlier.length).filterMap fun (c, i) => if c ∈ (earlier ++ cs).take i then some c else none := by
  induction cs generalizing earlier with
  | nil => rfl
  | cons c rest ih =>
    have later := ih (earlier ++ [c])
    have whole : earlier ++ [c] ++ rest = earlier ++ c :: rest := by simp
    rw [whole, List.length_append, List.length_singleton] at later
    rw [duplicatesAfter, later, List.zipIdx_cons, List.filterMap_cons]
    by_cases known : c ∈ earlier <;> simp [known]

theorem duplicates_eq_repeats (cs : List Criterion) : duplicates cs = repeats cs :=
  duplicatesAfter_eq [] cs

theorem count_duplicatesAfter (c : Criterion) : (duplicatesAfter earlier cs).count c =
    if c ∈ earlier then cs.count c else cs.count c - 1 := by
  induction cs generalizing earlier with
  | nil => simp [duplicatesAfter]
  | cons d rest ih =>
    rw [duplicatesAfter, List.count_append, ih]
    by_cases same : d = c
    · subst same
      by_cases known : d ∈ earlier
      · simp [known, Nat.add_comm]
      · simp [known]
    · have apart : c ≠ d := Ne.symm same
      by_cases known : d ∈ earlier <;> simp [known, same, apart]

theorem count_repeats (c : Criterion) : (repeats cs).count c = cs.count c - 1 := by
  rw [← duplicates_eq_repeats, duplicates, count_duplicatesAfter]
  simp

theorem repeats_eq_nil_iff : repeats cs = [] ↔ cs.Nodup := by
  rw [List.nodup_iff_count_le_one]
  constructor
  · intro none c
    have count : (repeats cs).count c = cs.count c - 1 := count_repeats c
    rw [none, List.count_nil] at count
    omega
  · intro single
    refine List.eq_nil_iff_forall_not_mem.mpr fun c member => ?_
    have count : (repeats cs).count c = cs.count c - 1 := count_repeats c
    have some := List.count_pos_iff.mpr member
    have once := single c
    omega

theorem not_overruns_of_short (short : ∀ token ∈ tokens, ¬ Overlong token) : ∀ n, ¬ Overruns (category, tokens) n := by
  rintro n ⟨before, token, rest, rfl, -, trial, -, digits, spells, plain, rfl, long⟩
  exact short token (by simp) ⟨digits, spells.numeric, plain, long⟩

theorem gain_or_refusals (category : Category) (depth : Int) (short : ∀ token ∈ tokens, ¬ Overlong token) :
    (compileTokens category tokens depth = .ok (gain depth (category, tokens)) ∧
      refusals depth (category, tokens) = []) ∨
    (compileTokens category tokens depth = .error (.problems (refusals depth (category, tokens))) ∧
      gain depth (category, tokens) = [] ∧ refusals depth (category, tokens) ≠ []) := by
  cases compiled : compileTokens category tokens depth with
  | ok cs => exact Or.inl (by simp [gain, refusals, compiled, Except.toOption])
  | error e =>
    cases e with
    | tooLong e => exact absurd compiled ((not_overruns_iff depth).mp (not_overruns_of_short short) e)
    | problems ps =>
      have filled : ps ≠ [] := problems_of_run compiled
      exact Or.inr (by simp [gain, refusals, compiled, filled, Except.toOption])

theorem compileEach_eq (depth : Int) (short : ∀ o ∈ occs, ∀ token ∈ o.2, ¬ Overlong token) :
    compileEach depth occs = .ok (occs.flatMap (gain depth), occs.flatMap (refusals depth)) := by
  induction occs with
  | nil => rfl
  | cons o rest ih =>
    obtain ⟨category, tokens⟩ := o
    have later := ih fun o member => short o (List.mem_cons_of_mem _ member)
    rcases gain_or_refusals category depth (short _ List.mem_cons_self) with
      ⟨compiled, none⟩ | ⟨failed, none, -⟩
    · rw [compileEach, compiled, later, List.flatMap_cons, List.flatMap_cons, none]
      rfl
    · rw [compileEach, failed, later, List.flatMap_cons, List.flatMap_cons, none]
      rfl

theorem refusals_eq_nil_iff (depth : Int) (short : ∀ o ∈ occs, ∀ token ∈ o.2, ¬ Overlong token) :
    occs.flatMap (refusals depth) = [] ↔ ∀ o ∈ occs, ∃ own, compileTokens o.1 o.2 depth = .ok own := by
  rw [List.flatMap_eq_nil_iff]
  refine forall₂_congr fun o member => ?_
  obtain ⟨category, tokens⟩ := o
  rcases gain_or_refusals category depth (short _ member) with
    ⟨compiled, none⟩ | ⟨failed, -, some⟩
  · exact ⟨fun _ => ⟨_, compiled⟩, fun _ => none⟩
  · refine ⟨fun none => absurd none some, ?_⟩
    rintro ⟨own, compiled⟩
    rw [failed] at compiled
    cases compiled

-- Those that compile give their criteria, in the order of the occurrences; the
-- search fails with everything that is wrong with the others, followed by each
-- criterion that stands there again.
theorem compile_in_one_batch (given : Terms) (depth : Int)
    (short : ∀ category, ∀ tokens ∈ given category, ∀ token ∈ tokens, ¬ Overlong token) :
    (∀ cs, compile given depth = .ok cs ↔
      (∀ o ∈ occurrences given, ∃ own, compileTokens o.1 o.2 depth = .ok own) ∧ cs.Nodup ∧
        cs = (occurrences given).flatMap (gain depth)) ∧
    ((∀ cs, compile given depth ≠ .ok cs) →
      ∃ ps, compile given depth = .error (.problems ps) ∧ ps ≠ [] ∧
        ps = (occurrences given).flatMap (refusals depth) ++
          (repeats ((occurrences given).flatMap (gain depth))).map .duplicate) ∧
    (∀ o ∈ occurrences given, (∃ ps, compileTokens o.1 o.2 depth = .error (.problems ps)) → gain depth o = []) ∧
    ∀ c, (repeats ((occurrences given).flatMap (gain depth))).count c =
      ((occurrences given).flatMap (gain depth)).count c - 1 := by
  have brief : ∀ o ∈ occurrences given, ∀ token ∈ o.2, ¬ Overlong token := by
    intro o member
    obtain ⟨category, -, inside⟩ := List.mem_flatMap.mp member
    obtain ⟨tokens, here, rfl⟩ := List.mem_map.mp inside
    exact short category tokens here
  have each := compileEach_eq depth brief
  have clear := refusals_eq_nil_iff depth brief
  generalize (occurrences given).flatMap (gain depth) = all at each ⊢
  generalize (occurrences given).flatMap (refusals depth) = problems at each clear ⊢
  have whole : compile given depth =
      if problems ++ (repeats all).map .duplicate = [] then .ok all
      else .error (.problems (problems ++ (repeats all).map .duplicate)) := by
    unfold compile
    rw [each]
    simp only [duplicates_eq_repeats, List.isEmpty_iff]
  have empty : problems ++ (repeats all).map TermProblem.duplicate = [] ↔
      (∀ o ∈ occurrences given, ∃ own, compileTokens o.1 o.2 depth = .ok own) ∧ all.Nodup := by
    rw [List.append_eq_nil_iff, List.map_eq_nil_iff, clear, repeats_eq_nil_iff]
  refine ⟨?_, ?_, ?_, fun c => count_repeats c⟩
  · intro cs
    by_cases none : problems ++ (repeats all).map TermProblem.duplicate = []
    · obtain ⟨compiled, distinct⟩ := empty.mp none
      rw [whole, if_pos none]
      constructor
      · intro done
        cases done
        exact ⟨compiled, distinct, rfl⟩
      · rintro ⟨-, -, rfl⟩
        rfl
    · rw [whole, if_neg none]
      constructor
      · intro done
        cases done
      · rintro ⟨compiled, distinct, rfl⟩
        exact absurd (empty.mpr ⟨compiled, distinct⟩) none
  · intro failed
    have some : problems ++ (repeats all).map TermProblem.duplicate ≠ [] := by
      intro none
      exact failed all (by rw [whole, if_pos none])
    exact ⟨_, by rw [whole, if_neg some], some, rfl⟩
  · rintro o member ⟨ps, failed⟩
    simp [gain, failed, Except.toOption]

def fiveGold : Criterion := { category := .gold, target := 5 }

def mixedGoods : Terms
  | .food => [["mango", "3", "mango"], ["mango", "3"]]
  | .gold => [["5"], ["5", "5"]]
  | _ => []

-- The first mangoes fail with their second part, and so the second ones are not
-- there again; the gold is, twice.
theorem compile_mixed_goods : compile mixedGoods 26 =
    .error (.problems [.countRequired .food, .duplicate fiveGold, .duplicate fiveGold]) := by
  have short : ∀ category, ∀ tokens ∈ mixedGoods category, ∀ token ∈ tokens, ¬ Overlong token := by
    intro category tokens member
    apply not_overlong_of_length
    revert tokens
    cases category <;> decide
  obtain ⟨returns, fails, -⟩ := compile_in_one_batch mixedGoods 26 short
  have refused : ∀ cs, compile mixedGoods 26 ≠ .ok cs := by
    intro cs done
    obtain ⟨compiled, -⟩ := (returns cs).mp done
    obtain ⟨own, mangoes⟩ := compiled (.food, ["mango", "3", "mango"]) (by decide)
    have countless : compileTokens .food ["mango", "3", "mango"] 26 = .error (.problems [.countRequired .food]) := by
      decide +kernel
    rw [countless] at mangoes
    cases mangoes
  obtain ⟨ps, failed, -, all⟩ := fails refused
  rw [failed, all]
  decide +kernel

end SeedSearch.Criterion
