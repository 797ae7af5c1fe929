import SeedSearch.Proofs.Recompile

namespace SeedSearch

theorem filter_flatMap_own {κ α : Type} [DecidableEq κ] {keys : List κ} {group : κ → List α} {key : α → κ}
    {k : κ} (distinct : keys.Nodup) (own : ∀ j ∈ keys, ∀ x ∈ group j, key x = j) (member : k ∈ keys) :
    (keys.flatMap group).filter (fun x => key x = k) = group k := by
  induction keys with
  | nil => cases member
  | cons j rest ih =>
    obtain ⟨fresh, later⟩ := List.nodup_cons.mp distinct
    have ownRest : ∀ i ∈ rest, ∀ x ∈ group i, key x = i := fun i inside => own i (List.mem_cons_of_mem _ inside)
    rw [List.flatMap_cons, List.filter_append]
    by_cases same : j = k
    · subst same
      have all : (group j).filter (fun x => key x = j) = group j := by
        rw [List.filter_eq_self]
        intro x inside
        simpa using own j List.mem_cons_self x inside
      have none : (rest.flatMap group).filter (fun x => key x = j) = [] := by
        rw [List.filter_eq_nil_iff]
        intro x inside found
        obtain ⟨i, there, here⟩ := List.mem_flatMap.mp inside
        have key := ownRest i there x here
        exact fresh (by simp_all)
      rw [all, none, List.append_nil]
    · have none : (group j).filter (fun x => key x = k) = [] := by
        rw [List.filter_eq_nil_iff]
        intro x inside found
        exact same ((own j List.mem_cons_self x inside).symm.trans (by simpa using found))
      rw [none, List.nil_append]
      exact ih later ownRest ((List.mem_cons.mp member).resolve_left (Ne.symm same))

namespace Criterion

variable {cs criteria : List Criterion} {category : Category} {depth : Int} {tokens : List String}
  {s : Compiling} {ps problems : List TermProblem} {occs : List (Category × List String)} {given : Terms}

def gain (depth : Int) (o : Category × List String) : List Criterion :=
  (compileTokens o.1 o.2 depth).toOption.getD []

def portion (given : Terms) (depth : Int) (category : Category) : List Criterion :=
  (given category).flatMap fun tokens => gain depth (category, tokens)

theorem gain_of_ok (compiled : compileTokens category tokens depth = .ok cs) :
    gain depth (category, tokens) = cs := by
  simp [gain, compiled, Except.toOption]

theorem problems_of_run (failed : Compiling.run depth s tokens = .error (.problems ps)) : ps ≠ [] := by
  induction tokens generalizing s with
  | nil =>
    unfold Compiling.run Compiling.result at failed
    split at failed
    · cases failed
    · rename_i some
      cases failed
      simpa using some
  | cons token rest ih =>
    unfold Compiling.run at failed
    split at failed
    · cases failed
    · cases failed
      simp
    · exact ih failed

theorem compileEach_ok_iff : compileEach depth occs = .ok (criteria, []) ↔
    (∀ o ∈ occs, ∃ own, compileTokens o.1 o.2 depth = .ok own) ∧ criteria = occs.flatMap (gain depth) := by
  induction occs generalizing criteria with
  | nil => simp [compileEach, eq_comm]
  | cons o rest ih =>
    obtain ⟨category, tokens⟩ := o
    have stuck (failed : ∀ own, compileTokens category tokens depth ≠ .ok own) :
        ¬ ∀ o ∈ (category, tokens) :: rest, ∃ own, compileTokens o.1 o.2 depth = .ok own := by
      intro all
      obtain ⟨own, compiled⟩ := all _ List.mem_cons_self
      exact failed own compiled
    cases compiled : compileTokens category tokens depth with
    | error e =>
      have none := stuck (by simp [compiled])
      cases e with
      | tooLong e => simp only [compileEach, compiled, none, false_and, reduceCtorEq]
      | problems ps =>
        have filled : ps ≠ [] := problems_of_run compiled
        simp only [compileEach, compiled, none, false_and, iff_false]
        cases compileEach depth rest with
        | error e => exact fun same => by cases same
        | ok pair => simp [bind, Except.bind, pure, Except.pure, filled]
    | ok own =>
      have head : gain depth (category, tokens) = own := gain_of_ok compiled
      simp only [compileEach, compiled, List.flatMap_cons, head, List.forall_mem_cons, Except.ok.injEq,
        exists_eq', true_and]
      constructor
      · intro done
        cases tail : compileEach depth rest with
        | error e => simp [tail, bind, Except.bind] at done
        | ok pair =>
          obtain ⟨later, problems⟩ := pair
          obtain ⟨rfl, rfl⟩ : own ++ later = criteria ∧ problems = [] := by
            simpa [tail, bind, Except.bind, pure, Except.pure] using done
          obtain ⟨all, rfl⟩ := ih.mp tail
          exact ⟨all, rfl⟩
      · rintro ⟨all, rfl⟩
        rw [ih.mpr ⟨all, rfl⟩]
        rfl

theorem compile_ok_iff : compile given depth = .ok cs ↔
    (∀ category, ∀ tokens ∈ given category, ∃ own, compileTokens category tokens depth = .ok own) ∧
      cs = Category.searchOrder.flatMap (portion given depth) ∧ duplicates cs = [] := by
  have each : (∀ o ∈ occurrences given, ∃ own, compileTokens o.1 o.2 depth = .ok own) ↔
      ∀ category, ∀ tokens ∈ given category, ∃ own, compileTokens category tokens depth = .ok own := by
    constructor
    · intro all category tokens member
      have place : (category, tokens) ∈ (given category).map (category, ·) := List.mem_map_of_mem member
      exact all _ (List.mem_flatMap.mpr ⟨category, category.mem_searchOrder, place⟩)
    · intro all o member
      obtain ⟨category, -, inside⟩ := List.mem_flatMap.mp member
      obtain ⟨tokens, here, rfl⟩ := List.mem_map.mp inside
      exact all category tokens here
  have gains : (occurrences given).flatMap (gain depth) = Category.searchOrder.flatMap (portion given depth) := by
    rw [occurrences, List.flatMap_assoc]
    simp only [List.flatMap_map]
    rfl
  rw [← each, ← gains, ← and_assoc, ← compileEach_ok_iff]
  unfold compile
  cases compiled : compileEach depth (occurrences given) with
  | error e => simp
  | ok pair =>
    obtain ⟨criteria, problems⟩ := pair
    cases problems with
    | cons p rest => simp
    | nil =>
      by_cases distinct : duplicates criteria = []
      · simp [distinct]
        rintro rfl
        exact distinct
      · simp [distinct]
        rintro rfl
        exact distinct

def regrouped (cs : List Criterion) : Terms := fun category =>
  let own := cs.filter (·.category = category)
  if own.isEmpty then [] else [own.flatMap Criterion.tokens]

theorem legible_of_compile (low : 1 ≤ depth) (high : depth ≤ 26) (compiled : compile given depth = .ok cs) :
    ∀ category, ∀ c ∈ portion given depth category, Legible category c := by
  intro category c member
  obtain ⟨tokens, inside, here⟩ := List.mem_flatMap.mp member
  obtain ⟨own, done⟩ := (compile_ok_iff.mp compiled).1 category tokens inside
  rw [gain_of_ok done] at here
  exact (legible_of_compileTokens low high done).2 c here

theorem compile_regrouped {depth' : Int} (low : 1 ≤ depth) (high : depth ≤ 26)
    (compiled : compile given depth = .ok cs) : compile (regrouped cs) depth' = .ok cs := by
  have legible := legible_of_compile low high compiled
  obtain ⟨-, whole, distinct⟩ := compile_ok_iff.mp compiled
  have occurrence : ∀ category, regrouped cs category =
      if (portion given depth category).isEmpty then []
      else [(portion given depth category).flatMap Criterion.tokens] := by
    intro category
    have own : cs.filter (·.category = category) = portion given depth category := by
      rw [whole]
      exact filter_flatMap_own (by decide) (fun j _ c inside => (legible j c inside).kept) category.mem_searchOrder
    simp only [regrouped, own]
  have again : ∀ category, (portion given depth category).isEmpty = false →
      compileTokens category ((portion given depth category).flatMap Criterion.tokens) depth' =
        .ok (portion given depth category) :=
    fun category filled => compileTokens_legible (legible category) (List.isEmpty_eq_false_iff.mp filled)
  refine compile_ok_iff.mpr ⟨?_, ?_, distinct⟩
  · intro category tokens member
    rw [occurrence] at member
    cases filled : (portion given depth category).isEmpty with
    | true =>
      rw [filled, if_pos rfl] at member
      cases member
    | false =>
      rw [filled, if_neg Bool.false_ne_true] at member
      obtain rfl := List.mem_singleton.mp member
      exact ⟨_, again category filled⟩
  · refine whole.trans (List.flatMap_congr fun category _ => ?_)
    change portion given depth category = (regrouped cs category).flatMap _
    rw [occurrence]
    cases filled : (portion given depth category).isEmpty with
    | true => simpa using filled
    | false => simp [gain_of_ok (again category filled)]

-- Criteria that came of compiling are compiled from their own tokens, whatever
-- depth is then the default: those of one occurrence all at once, those of a
-- whole search with one occurrence for each category that they name.
theorem recompile (depth depth' : Int) (low : 1 ≤ depth) (high : depth ≤ 26) :
    (∀ category tokens cs, compileTokens category tokens depth = .ok cs →
      compileTokens category (cs.flatMap Criterion.tokens) depth' = .ok cs) ∧
    (∀ given cs, compile given depth = .ok cs → compile (regrouped cs) depth' = .ok cs) := by
  constructor
  · intro category tokens cs compiled
    obtain ⟨filled, legible⟩ := legible_of_compileTokens low high compiled
    exact compileTokens_legible legible filled
  · intro given cs compiled
    exact compile_regrouped low high compiled

def shackledGoblin : Criterion where
  category := .ally
  maxDepth := 12
  kind := some "goblin"
  status := .named "shackled"
  mutation := .keyword

def cursedRing : Criterion where
  category := .ring
  target := 2
  mode := .lessThan
  maxDepth := 4
  enchantment := some ⟨-3, true⟩
  vault := .inside
  magic := some .bad

def goblinAndRing : Terms
  | .ally => [["shackled", "goblin", "mutation"]]
  | .ring => [["3-", "vault", "bad", "d4", "<2"]]
  | _ => []

theorem recompile_goblins :
    compileTokens .ally ([shackledGoblin, shackledGoblin].flatMap Criterion.tokens) 3 =
      .ok [shackledGoblin, shackledGoblin] ∧
    compile (regrouped [shackledGoblin, cursedRing]) 3 = .ok [shackledGoblin, cursedRing] := by
  obtain ⟨occurrence, search⟩ := recompile 12 3 (by decide) (by decide)
  constructor
  · exact occurrence .ally ["shackled", "goblin", "mutation", "mutation", "goblin", "shackled"] _ (by decide +kernel)
  · exact search goblinAndRing _ (by decide +kernel)

end Criterion

end SeedSearch
