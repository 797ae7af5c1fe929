import SeedSearch.Proofs.Regroup

namespace SeedSearch
open Text (isPlainDigit)
open Text.Numeral (TooLong digitLimit natural_error_iff)

variable {α : Type} {passes stops : α → Prop} {a : α} {rest : List α}

def ComesTo (passes stops : α → Prop) (all : List α) : Prop :=
  ∃ before a rest, all = before ++ a :: rest ∧ (∀ b ∈ before, passes b) ∧ stops a

theorem not_comesTo_nil : ¬ ComesTo passes stops [] := by
  rintro ⟨before, a, rest, whole, -⟩
  simp at whole

theorem comesTo_cons : ComesTo passes stops (a :: rest) ↔ stops a ∨ passes a ∧ ComesTo passes stops rest := by
  constructor
  · rintro ⟨before, b, more, whole, passed, here⟩
    rcases List.cons_eq_append_iff.mp whole with ⟨rfl, same⟩ | ⟨before, rfl, rfl⟩
    · obtain ⟨rfl, -⟩ := List.cons.inj same
      exact Or.inl here
    · have later : ∀ b ∈ before, passes b := fun b member => passed b (List.mem_cons_of_mem _ member)
      exact Or.inr ⟨passed a List.mem_cons_self, before, b, more, rfl, later, here⟩
  · rintro (here | ⟨passed, before, b, more, rfl, later, here⟩)
    · exact ⟨[], a, rest, rfl, by simp, here⟩
    · exact ⟨a :: before, b, more, rfl, List.forall_mem_cons.mpr ⟨passed, later⟩, here⟩

theorem forall_not_comesTo_iff {ι : Type} {stops : ι → α → Prop} {all : List α} :
    (∀ i, ¬ ComesTo (fun a => ∀ i, ¬ stops i a) (stops i) all) ↔ ∀ a ∈ all, ∀ i, ¬ stops i a := by
  induction all with
  | nil => simp [not_comesTo_nil]
  | cons a rest ih =>
    rw [List.forall_mem_cons, ← ih]
    constructor
    · intro clear
      have first : ∀ i, ¬ stops i a := fun i here => clear i (comesTo_cons.mpr (Or.inl here))
      exact ⟨first, fun i later => clear i (comesTo_cons.mpr (Or.inr ⟨first, later⟩))⟩
    · rintro ⟨first, later⟩ i comes
      rcases comesTo_cons.mp comes with here | ⟨-, there⟩
      · exact first i here
      · exact later i there

variable {category : Category} {token : String} {tokens : List String} {depth : Int} {e : TooLong} {n : Nat}

-- The token writes a number in so many digits that it is not read.
def Term.Overruns (category : Category) (token : String) (n : Nat) : Prop :=
  ∃ trial ∈ Trial.grammar category, ∃ digits, Trial.Spells digits trial token.toList ∧
    digits.all isPlainDigit = true ∧ digits.length = n ∧ digitLimit < n

theorem Trial.exists_of_first_error {trials : List Trial} (failed : first category token trials = .error e) :
    ∃ trial ∈ trials, trial.read category token = .error e := by
  induction trials with
  | nil => cases failed
  | cons trial rest ih =>
    unfold first at failed
    cases read : trial.read category token with
    | error _ =>
      rw [read] at failed
      cases failed
      exact ⟨trial, List.mem_cons_self, read⟩
    | ok term =>
      rw [read] at failed
      cases term with
      | none =>
        obtain ⟨later, member, same⟩ := ih failed
        exact ⟨later, List.mem_cons_of_mem _ member, same⟩
      | some _ => cases failed

theorem Term.read_error_iff : Term.read category token = .error e ↔ Overruns category token e.digits := by
  constructor
  · intro failed
    obtain ⟨trial, member, stopped⟩ := Trial.exists_of_first_error failed
    obtain ⟨digits, spells, unread⟩ := Trial.read_error_iff.mp stopped
    obtain ⟨plain, long, rfl⟩ := natural_error_iff.mp unread
    exact ⟨trial, member, digits, spells, plain, rfl, long⟩
  · rintro ⟨trial, member, digits, spells, plain, same, long⟩
    have unread : Text.Numeral.natural? digits = .error e := natural_error_iff.mpr ⟨plain, same ▸ long, by rw [same]⟩
    have stopped : trial.read category token = .error e := Trial.read_error_iff.mpr ⟨digits, spells, unread⟩
    rw [read_spelled member spells plain (by simp [stopped]), stopped]

namespace Criterion

variable {s : Compiling} {o : Category × List String} {occs : List (Category × List String)} {given : Terms}

def Overruns (o : Category × List String) (n : Nat) : Prop :=
  ComesTo (fun token => (Term.of? o.1 token).isSome = true) (fun token => Term.Overruns o.1 token n) o.2

def Settled (result : Except CompileError (List Criterion)) : Prop :=
  (∃ cs, result = .ok cs) ∨ ∃ ps, ps ≠ [] ∧ result = .error (.problems ps)

theorem run_tooLong_iff :
    Compiling.run depth s tokens = .error (.tooLong e) ↔ Overruns (s.draft.category, tokens) e.digits := by
  induction tokens generalizing s with
  | nil =>
    refine iff_of_false ?_ not_comesTo_nil
    intro failed
    unfold Compiling.run Compiling.result at failed
    split at failed <;> cases failed
  | cons token rest ih =>
    rw [Overruns, comesTo_cons, ← Term.read_error_iff]
    unfold Compiling.run
    cases read : Term.read s.draft.category token with
    | error g => simp [Term.of?, read, Except.toOption]
    | ok term =>
      cases term with
      | none => simp [Term.of?, read, Except.toOption]
      | some t => simp [Term.of?, read, Except.toOption, ih, take_category, Overruns]

theorem compileTokens_tooLong_iff (depth : Int) :
    compileTokens o.1 o.2 depth = .error (.tooLong e) ↔ Overruns o e.digits :=
  run_tooLong_iff

theorem settled_iff {result : Except CompileError (List Criterion)}
    (filled : ∀ ps, result = .error (.problems ps) → ps ≠ []) :
    Settled result ↔ ∀ e, result ≠ .error (.tooLong e) := by
  rcases result with (ps | e) | cs
  · exact iff_of_true (Or.inr ⟨ps, filled ps rfl, rfl⟩) (by simp)
  · refine iff_of_false ?_ fun settled => settled e rfl
    rintro (⟨cs, same⟩ | ⟨ps, -, same⟩) <;> cases same
  · exact iff_of_true (Or.inl ⟨cs, rfl⟩) (by simp)

theorem not_overruns_iff (depth : Int) :
    (∀ n, ¬ Overruns o n) ↔ ∀ e, compileTokens o.1 o.2 depth ≠ .error (.tooLong e) :=
  ⟨fun clear e failed => clear e.digits ((compileTokens_tooLong_iff depth).mp failed),
    fun read n overruns => read ⟨n⟩ ((compileTokens_tooLong_iff depth).mpr overruns)⟩

theorem compileEach_error_iff : compileEach depth occs = .error e ↔
    ComesTo (fun o => ∀ n, ¬ Overruns o n) (fun o => Overruns o e.digits) occs := by
  induction occs with
  | nil => exact iff_of_false (by simp [compileEach]) not_comesTo_nil
  | cons o rest ih =>
    obtain ⟨category, tokens⟩ := o
    rw [comesTo_cons, ← ih, ← compileTokens_tooLong_iff depth, not_overruns_iff depth]
    rcases compiled : compileTokens category tokens depth with (ps | g) | cs
    · rw [compileEach, compiled]
      cases compileEach depth rest <;> simp [bind, Except.bind, pure, Except.pure]
    · rw [compileEach, compiled]
      simp
    · rw [compileEach, compiled]
      cases compileEach depth rest <;> simp [bind, Except.bind, pure, Except.pure]

theorem compile_tooLong_iff : compile given depth = .error (.tooLong e) ↔
    ComesTo (fun o => ∀ n, ¬ Overruns o n) (fun o => Overruns o e.digits) (occurrences given) := by
  rw [← compileEach_error_iff]
  unfold compile
  cases compileEach depth (occurrences given) with
  | error g => simp
  | ok found =>
    simp only [reduceCtorEq, iff_false]
    split <;> simp

theorem problems_of_compile {ps : List TermProblem} (failed : compile given depth = .error (.problems ps)) :
    ps ≠ [] := by
  unfold compile at failed
  split at failed
  · cases failed
  · dsimp only at failed
    split at failed
    · cases failed
    · rename_i some
      cases failed
      simpa using some

-- Compiling comes to criteria or to problems for every search in which no number
-- overruns the limit on its digits. The first one that does, and nothing else,
-- stops it, and no problem is then reported.
theorem compile_settles_or_overruns (given : Terms) (depth : Int) :
    (Settled (compile given depth) ↔ ∀ o ∈ occurrences given, ∀ n, ¬ Overruns o n) ∧
    (∀ e, compile given depth = .error (.tooLong e) ↔
      ComesTo (fun o => ∀ n, ¬ Overruns o n) (fun o => Overruns o e.digits) (occurrences given)) ∧
    ∀ o : Category × List String,
      (Settled (compileTokens o.1 o.2 depth) ↔ ∀ n, ¬ Overruns o n) ∧
      ∀ e, compileTokens o.1 o.2 depth = .error (.tooLong e) ↔ Overruns o e.digits := by
  refine ⟨?_, fun e => compile_tooLong_iff, fun o => ⟨?_, fun e => compileTokens_tooLong_iff depth⟩⟩
  · rw [settled_iff fun ps => problems_of_compile, ← forall_not_comesTo_iff]
    constructor
    · intro read n comes
      exact read ⟨n⟩ (compile_tooLong_iff.mpr comes)
    · intro clear e failed
      exact clear e.digits (compile_tooLong_iff.mp failed)
  · rw [not_overruns_iff depth]
    exact settled_iff fun ps => problems_of_run

theorem overruns_count {digits : List Char} (plain : digits.all isPlainDigit = true) (long : digitLimit < digits.length)
    (category : Category) (rest : List String) :
    Overruns (category, String.ofList digits :: rest) digits.length := by
  have counted := Trial.count_mem_grammar category
  refine ⟨[], String.ofList digits, rest, rfl, by simp, .count, counted, digits, ?_, plain, rfl, long⟩
  rw [String.toList_ofList]
  exact .count .atLeast

-- The mango without a count is not reported beside the gold that is not read.
example : compile (fun
    | .food => [["mango"]]
    | .gold => [[String.ofList (List.replicate 4301 '1')]]
    | _ => []) 26 = .error (.tooLong ⟨4301⟩) := by
  have long : digitLimit < (List.replicate 4301 '1').length := by
    rw [List.length_replicate]
    decide
  have plain : (List.replicate 4301 '1').all isPlainDigit = true := by
    rw [List.all_replicate]
    decide
  have overruns := overruns_count plain long .gold []
  rw [List.length_replicate] at overruns
  have refused : compileTokens .food ["mango"] 26 = .error (.problems [.countRequired .food]) := by decide +kernel
  refine compile_tooLong_iff.mpr ⟨[(.food, ["mango"])], _, [], rfl, ?_, overruns⟩
  simp only [List.mem_singleton, forall_eq]
  exact (not_overruns_iff 26).mpr fun e stopped => by cases refused.symm.trans stopped

end Criterion

end SeedSearch
