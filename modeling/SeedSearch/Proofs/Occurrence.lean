import SeedSearch.Proofs.Assignments
import SeedSearch.Proofs.Segments
import SeedSearch.Proofs.Tokens

namespace SeedSearch.Criterion
open Term (slotOf)

variable {category : Category} {depth : Int} {token : String} {tokens before more last part : List String}
  {closed parts : List (List String)} {s : Compiling} {t : Term} {slot : Slot}

def AreTerms (category : Category) (tokens : List String) : Prop :=
  ∀ token ∈ tokens, (Term.of? category token).isSome = true

instance (category : Category) (tokens : List String) : Decidable (AreTerms category tokens) :=
  inferInstanceAs (Decidable (∀ _ ∈ _, _))

def termsOf (category : Category) (part : List String) : List Term := part.filterMap (Term.of? category)

-- A part that asks for food or gold and does not say how much.
def Countless (category : Category) (part : List String) : Prop :=
  (category = .food ∨ category = .gold) ∧ some Slot.count ∉ part.map (slotOf category)

instance (category : Category) (part : List String) : Decidable (Countless category part) :=
  inferInstanceAs (Decidable (_ ∧ _))

def complaints (category : Category) (parts : List (List String)) : List TermProblem :=
  (parts.filter fun part => Countless category part).map fun _ => .countRequired category

def draftOf (category : Category) (part : List String) : Draft :=
  { category, terms := termsOf category part }

-- Where the reading stands with these parts closed and nothing read since.
def past (category : Category) (depth : Int) (closed : List (List String)) : Compiling where
  draft := { category }
  done := (closed.filter fun part => ¬ Countless category part).map fun part => (draftOf category part).criterion depth
  problems := complaints category closed

structure Reading (category : Category) (depth : Int) (tokens : List String)
    (closed : List (List String)) (last : List String) (s : Compiling) : Prop where
  cut : Segmentation (slotOf category) tokens (closed ++ [last])
  state : s = { past category depth closed with draft := draftOf category last }
  begun : termsOf category last ≠ []

theorem draftOf_filled :
    (draftOf category part).filled slot = true ↔ some slot ∈ part.map (slotOf category) := by
  constructor
  · intro filled
    obtain ⟨t, member, same⟩ := List.any_eq_true.mp filled
    obtain ⟨token, inside, read⟩ := List.mem_filterMap.mp member
    exact List.mem_map.mpr ⟨token, inside, by simpa [slotOf, read] using same⟩
  · intro named
    obtain ⟨token, inside, place⟩ := List.mem_map.mp named
    obtain ⟨t, read, same⟩ := Option.map_eq_some_iff.mp place
    exact List.any_eq_true.mpr ⟨t, List.mem_filterMap.mpr ⟨token, inside, read⟩, by simpa using same⟩

theorem termsOf_snoc (read : Term.of? category token = some t) :
    termsOf category (part ++ [token]) = termsOf category part ++ [t] := by
  simp [termsOf, read]

theorem termsOf_slots (terms : AreTerms category part) :
    ((termsOf category part).map Term.slot).map some = part.map (slotOf category) := by
  induction part with
  | nil => rfl
  | cons token rest ih =>
    obtain ⟨t, read⟩ := Option.isSome_iff_exists.mp (terms token (by simp))
    have later := ih fun other member => terms other (List.mem_cons_of_mem _ member)
    rw [List.map_cons, ← later]
    simp [termsOf, slotOf, read]

theorem draftOf_finish (begun : termsOf category part ≠ []) : (draftOf category part).finish depth =
    if Countless category part then .error (.countRequired category)
    else .ok ((draftOf category part).criterion depth) := by
  have same : (Draft.countRequired.contains (draftOf category part).category &&
      !(draftOf category part).filled .count) = true ↔ Countless category part := by
    rw [Bool.and_eq_true, Bool.not_eq_true', ← Bool.not_eq_true, draftOf_filled]
    simp [Countless, Draft.countRequired, draftOf]
  have filled : (draftOf category part).terms.isEmpty = false := by simpa [draftOf] using begun
  unfold Draft.finish
  by_cases countless : Countless category part
  · rw [if_pos (same.mpr countless), if_pos countless]
    rfl
  · rw [if_neg (mt same.mp countless), if_neg countless, filled]
    rfl

theorem complaints_eq_nil : complaints category parts = [] ↔ ∀ part ∈ parts, ¬ Countless category part := by
  simp [complaints]

theorem close_draftOf (begun : termsOf category last ≠ []) :
    Compiling.close { past category depth closed with draft := draftOf category last } depth =
      past category depth (closed ++ [last]) := by
  unfold Compiling.close
  rw [draftOf_finish begun]
  by_cases countless : Countless category last
  · simp [countless, past, complaints, draftOf]
  · simp [countless, past, complaints, draftOf]

namespace Reading

theorem first (depth : Int) (read : Term.of? category token = some t) :
    Reading category depth [token] [] [token] ((past category depth []).take depth t) := by
  refine { cut := .single token, state := ?_, begun := ?_ }
  · simp [Compiling.take, past, Draft.filled, Draft.fill, draftOf, termsOf, read]
  · simp [termsOf, read]

theorem take (reading : Reading category depth tokens closed last s)
    (read : Term.of? category token = some t) :
    ∃ closed last, Reading category depth (tokens ++ [token]) closed last (s.take depth t) := by
  have place : slotOf category token = some t.slot := by simp [slotOf, read]
  rw [reading.state]
  by_cases used : slotOf category token ∈ last.map (slotOf category)
  · refine ⟨closed ++ [last], [token], reading.cut.cut_off used, ?_, by simp [termsOf, read]⟩
    have filled := draftOf_filled.mpr (place ▸ used)
    simp only [Compiling.take, filled, if_true, close_draftOf reading.begun]
    simp [past, Draft.fill, draftOf, termsOf, read]
  · refine ⟨closed, last ++ [token], reading.cut.join used, ?_, by simp [termsOf_snoc read]⟩
    have free := mt draftOf_filled.mp (place ▸ used)
    simp only [Compiling.take, free]
    simp [Draft.fill, draftOf, termsOf_snoc read]

theorem category_eq (reading : Reading category depth tokens closed last s) :
    s.draft.category = category := by
  rw [reading.state]
  rfl

theorem run (reading : Reading category depth tokens closed last s) (terms : AreTerms category more) :
    ∃ closed last s', Reading category depth (tokens ++ more) closed last s' ∧
      ∀ rest, Compiling.run depth s (more ++ rest) = Compiling.run depth s' rest := by
  induction more generalizing tokens closed last s with
  | nil => exact ⟨closed, last, s, by simpa using reading, fun rest => rfl⟩
  | cons token more ih =>
    obtain ⟨t, read⟩ := Option.isSome_iff_exists.mp (terms token (by simp))
    obtain ⟨closed, last, reading'⟩ := reading.take read
    obtain ⟨closed, last, s', later, runs⟩ :=
      ih reading' fun other member => terms other (List.mem_cons_of_mem _ member)
    refine ⟨closed, last, s', by simpa using later, fun rest => ?_⟩
    have here := Term.of?_eq_some_iff.mp read
    rw [← runs rest, List.cons_append, Compiling.run, reading.category_eq, here]

end Reading

theorem exists_reading (depth : Int) (given : tokens ≠ []) (terms : AreTerms category tokens) :
    ∃ closed last s, Reading category depth tokens closed last s ∧
      ∀ rest, compileTokens category (tokens ++ rest) depth = Compiling.run depth s rest := by
  cases tokens with
  | nil => exact absurd rfl given
  | cons token more =>
    obtain ⟨t, read⟩ := Option.isSome_iff_exists.mp (terms token (by simp))
    obtain ⟨closed, last, s, reading, runs⟩ :=
      (Reading.first depth read).run fun other member => terms other (List.mem_cons_of_mem _ member)
    refine ⟨closed, last, s, reading, fun rest => ?_⟩
    have here := Term.of?_eq_some_iff.mp read
    rw [← runs rest, compileTokens, List.cons_append, Compiling.run, here]
    rfl

theorem result_past : (past category depth parts).result =
    if ∀ part ∈ parts, ¬ Countless category part then
      .ok (parts.map fun part => (draftOf category part).criterion depth)
    else .error (.problems (complaints category parts)) := by
  by_cases counted : ∀ part ∈ parts, ¬ Countless category part
  · have none := complaints_eq_nil.mpr counted
    have all : (parts.filter fun part => ¬ Countless category part) = parts := by
      rw [List.filter_eq_self]
      intro part member
      simpa using counted part member
    rw [if_pos counted]
    unfold Compiling.result past
    rw [none, all]
    rfl
  · have some : (complaints category parts).isEmpty = false := by
      rw [List.isEmpty_eq_false_iff]
      exact mt complaints_eq_nil.mp counted
    rw [if_neg counted]
    unfold Compiling.result past
    rw [some]
    rfl

theorem compileTokens_terms (depth : Int) (given : tokens ≠ []) (terms : AreTerms category tokens)
    (cut : Segmentation (slotOf category) tokens parts) :
    compileTokens category tokens depth =
      if ∀ part ∈ parts, ¬ Countless category part then
        .ok (parts.map fun part => (draftOf category part).criterion depth)
      else .error (.problems (complaints category parts)) := by
  obtain ⟨closed, last, s, reading, runs⟩ := exists_reading depth given terms
  have same := reading.cut.unique cut
  have ended := runs []
  rw [List.append_nil] at ended
  rw [ended, Compiling.run, reading.state, close_draftOf reading.begun, result_past, same]

-- What it comes to when a token is none: the open part is not judged.
theorem compileTokens_stopped {rest : List String} (terms : AreTerms category before)
    (cut : Segmentation (slotOf category) before parts) (none : Term.read category token = .ok none) :
    compileTokens category (before ++ token :: rest) depth =
      .error (.problems (complaints category parts.dropLast ++ [.notATerm category token])) := by
  by_cases given : before = []
  · rw [cut.eq_nil given, given]
    simp [compileTokens, Compiling.run, none, complaints]
  · obtain ⟨closed, last, s, reading, runs⟩ := exists_reading depth given terms
    have same := reading.cut.unique cut
    rw [runs, Compiling.run, reading.category_eq, none, reading.state, ← same, List.dropLast_concat]
    rfl

theorem exists_cut (terms : AreTerms category tokens) :
    ∃ parts, Segmentation (slotOf category) tokens parts := by
  by_cases given : tokens = []
  · exact ⟨[], given ▸ .nil⟩
  · obtain ⟨closed, last, _, reading, -⟩ := exists_reading 0 given terms
    exact ⟨closed ++ [last], reading.cut⟩

theorem madeOf_part (depth : Int) (terms : AreTerms category part) (apart : (part.map (slotOf category)).Nodup) :
    MadeOf category depth (termsOf category part) ((draftOf category part).criterion depth) := by
  refine madeOf_foldl ?_
  rw [← termsOf_slots terms] at apart
  exact apart.of_map

-- An occurrence is compiled part by part. Its terms can be cut in one way only,
-- and each part that is not countless is a criterion made of just its terms; the
-- others are complained of in order. A token that is no term comes last in the
-- complaints, and the part it breaks off is not judged.
theorem compileTokens_by_parts (category : Category) (depth : Int) (tokens : List String)
    (given : tokens ≠ []) (short : ∀ token ∈ tokens, ¬ Overlong token) :
    (AreTerms category tokens →
      ∃ parts, Segmentation (slotOf category) tokens parts ∧
        (∀ others, Segmentation (slotOf category) tokens others → others = parts) ∧
        ((∃ cs, compileTokens category tokens depth = .ok cs) ↔ ∀ part ∈ parts, ¬ Countless category part) ∧
        (∀ cs, compileTokens category tokens depth = .ok cs →
          List.Forall₂ (fun part c => MadeOf category depth (termsOf category part) c) parts cs) ∧
        ((∃ part ∈ parts, Countless category part) →
          compileTokens category tokens depth = .error (.problems (complaints category parts)))) ∧
    (∀ before token rest, tokens = before ++ token :: rest → AreTerms category before →
      Term.of? category token = none →
      ∃ parts, Segmentation (slotOf category) before parts ∧
        (∀ others, Segmentation (slotOf category) before others → others = parts) ∧
        compileTokens category tokens depth =
          .error (.problems (complaints category parts.dropLast ++ [.notATerm category token]))) := by
  constructor
  · intro terms
    obtain ⟨parts, cut⟩ := exists_cut terms
    have compiled := compileTokens_terms depth given terms cut
    refine ⟨parts, cut, fun others other => other.unique cut, ?_, ?_, ?_⟩
    · constructor
      · rintro ⟨cs, done⟩
        by_contra countless
        rw [compiled, if_neg countless] at done
        cases done
      · intro counted
        exact ⟨_, compiled.trans (if_pos counted)⟩
    · intro cs done
      rw [compiled] at done
      split at done
      · cases done
        rw [List.forall₂_map_right_iff, List.forall₂_same]
        intro part member
        have inside : AreTerms category part := fun token here =>
          terms token (cut.whole ▸ List.mem_flatten_of_mem member here)
        exact madeOf_part depth inside (cut.apart part member)
      · cases done
    · rintro ⟨part, member, countless⟩
      exact compiled.trans (if_neg fun counted => counted part member countless)
  · rintro before token rest rfl terms unread
    obtain ⟨parts, cut⟩ := exists_cut terms
    have read : Term.read category token = .ok none := unread ▸ Term.read_of_not_overlong (short token (by simp))
    exact ⟨parts, cut, fun others other => other.unique cut, compileTokens_stopped terms cut read⟩

-- Four terms make two criteria; without a count for the second mango, and with a
-- word that is no term, the two complaints leave out the open part.
theorem compileTokens_mangoes :
    (∃ cs, compileTokens .food ["mango", "3", "d2", "4"] 26 = .ok cs ∧ cs.length = 2) ∧
    compileTokens .food ["mango", "3", "mango", "d9", "d2", "dust"] 26 =
      .error (.problems [.countRequired .food, .notATerm .food "dust"]) := by
  constructor
  · obtain ⟨whole, -⟩ := compileTokens_by_parts .food 26 ["mango", "3", "d2", "4"] (by simp)
      (not_overlong_of_length (by decide))
    obtain ⟨parts, -, only, compiles, made, -⟩ := whole (by decide +kernel)
    have two := only [["mango", "3", "d2"], ["4"]]
      { whole := rfl, filled := by simp, apart := by decide +kernel, forced := by decide +kernel }
    subst two
    obtain ⟨cs, done⟩ := compiles.mpr (by decide +kernel)
    exact ⟨cs, done, (made cs done).length_eq.symm⟩
  · obtain ⟨-, stopped⟩ := compileTokens_by_parts .food 26 ["mango", "3", "mango", "d9", "d2", "dust"]
      (by simp) (not_overlong_of_length (by decide))
    obtain ⟨parts, -, only, failed⟩ := stopped ["mango", "3", "mango", "d9", "d2"] "dust" [] rfl
      (by decide +kernel) (by decide +kernel)
    have three := only [["mango", "3"], ["mango", "d9"], ["d2"]]
      { whole := rfl, filled := by simp, apart := by decide +kernel, forced := by decide +kernel }
    subst three
    rw [failed]
    decide +kernel

end SeedSearch.Criterion
