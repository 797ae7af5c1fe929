import SeedSearch.Proofs.Shares

namespace SeedSearch
open Catalog (Row)

structure Taking where
  row : Row
  outcome : Outcome
  deriving DecidableEq, Repr

namespace Taking

def match? (t : Taking) : Option Match :=
  t.row.object.toOption.map fun object =>
    { seed := t.row.seed, depth := t.row.depth, object, outcome := t.outcome, vault := t.row.vault,
      carriedBy := t.row.carriedBy }

def fault? (t : Taking) : Option Fault :=
  match t.row.object with
  | .ok _ => none
  | .error f => some f

-- Nothing behind an early exit is looked at.
def heeded : List Taking → List Taking
  | [] => []
  | t :: rest => t :: if t.outcome.abandons then [] else heeded rest

theorem heeded_append (ts us : List Taking) :
    heeded (ts ++ us) = if ts.any (·.outcome.abandons) then heeded ts else ts ++ heeded us := by
  induction ts with
  | nil => simp
  | cons t rest ih =>
    by_cases exits : t.outcome.abandons = true
    · simp [heeded, exits]
    · by_cases later : rest.any (·.outcome.abandons) = true
      · simp [heeded, exits, ih, later]
      · simp [heeded, exits, ih, later]

theorem heeded_of_live {ts : List Taking} (live : ts.any (·.outcome.abandons) = false) : heeded ts = ts := by
  induction ts with
  | nil => rfl
  | cons t rest ih =>
    simp only [List.any_cons, Bool.or_eq_false_iff] at live
    simp [heeded, live.1, ih live.2]

end Taking

namespace Criterion

def taking (cs : List Criterion) (before : List Row) (r : Row) : List Taking :=
  ((outcomeAt cs before r).map (Taking.mk r)).toList

def takingsAfter (cs : List Criterion) (before : List Row) : List Row → List Taking
  | [] => []
  | r :: rest => taking cs before r ++ takingsAfter cs (before ++ [r]) rest

def takings (cs : List Criterion) (run : List Row) : List Taking := takingsAfter cs [] run

def found (cs : List Criterion) (run : List Row) : List Match := (takings cs run).filterMap Taking.match?

def RuledOut (cs : List Criterion) (run : List Row) : Prop :=
  ∃ t ∈ takings cs run, t.outcome.abandons = true

-- The fault of the first row that is taken but describes no object, unless the
-- seed is ruled out before it.
def faultIn (cs : List Criterion) (run : List Row) : Option Fault :=
  (Taking.heeded (takings cs run)).findSome? Taking.fault?

-- A seed qualifies by the whole quantities that its rows give to the criteria.
def Qualifies (cs : List Criterion) (run : List Row) : Prop :=
  (∃ r ∈ run, (taker cs r).isSome = true) ∧ ∀ i (here : i < cs.length), cs[i].Met (share cs run i)

def Kept (cs : List Criterion) (run : List Row) : Prop := ¬ RuledOut cs run ∧ Qualifies cs run

instance (cs : List Criterion) (run : List Row) : Decidable (RuledOut cs run) :=
  inferInstanceAs (Decidable (∃ t ∈ takings cs run, _))

instance (cs : List Criterion) (run : List Row) : Decidable (Qualifies cs run) :=
  inferInstanceAs (Decidable (_ ∧ _))

instance (cs : List Criterion) (run : List Row) : Decidable (Kept cs run) :=
  inferInstanceAs (Decidable (_ ∧ _))

variable {cs : List Criterion} {before run rest : List Row} {r : Row} {f : Fault}

theorem takingsAfter_append : takingsAfter cs before (run ++ rest) =
    takingsAfter cs before run ++ takingsAfter cs (before ++ run) rest := by
  induction run generalizing before with
  | nil => simp [takingsAfter]
  | cons r more ih => simp [takingsAfter, ih, List.append_assoc]

theorem takings_append : takings cs (run ++ rest) = takings cs run ++ takingsAfter cs run rest :=
  takingsAfter_append

theorem takings_snoc : takings cs (run ++ [r]) = takings cs run ++ taking cs run r := by
  simp [takings_append, takingsAfter]

theorem mem_taking {t : Taking} :
    t ∈ taking cs before r ↔ r = t.row ∧ outcomeAt cs before r = some t.outcome := by
  cases here : outcomeAt cs before r with
  | none => simp [taking, here]
  | some outcome =>
    simp only [taking, here, Option.map_some, Option.toList_some, List.mem_singleton, Option.some.injEq]
    constructor
    · rintro rfl
      exact ⟨rfl, rfl⟩
    · rintro ⟨rfl, rfl⟩
      rfl

theorem mem_takingsAfter {t : Taking} (member : t ∈ takingsAfter cs before run) :
    ∃ here later, run = here ++ t.row :: later ∧ outcomeAt cs (before ++ here) t.row = some t.outcome := by
  induction run generalizing before with
  | nil => simp [takingsAfter] at member
  | cons r rest ih =>
    rcases List.mem_append.mp member with first | later
    · obtain ⟨rfl, counted⟩ := mem_taking.mp first
      exact ⟨[], rest, rfl, by simpa using counted⟩
    · obtain ⟨here, later, split, counted⟩ := ih later
      exact ⟨r :: here, later, by simp [split], by simpa using counted⟩

theorem ruledOut_append (out : RuledOut cs run) : RuledOut cs (run ++ rest) := by
  obtain ⟨t, member, exits⟩ := out
  exact ⟨t, takings_append ▸ List.mem_append_left _ member, exits⟩

theorem ruledOut_snoc :
    RuledOut cs (run ++ [r]) ↔ RuledOut cs run ∨ outcomeAt cs run r = some .earlyExit := by
  have last : (∃ t ∈ taking cs run r, t.outcome.abandons = true) ↔ outcomeAt cs run r = some .earlyExit := by
    cases here : outcomeAt cs run r with
    | none => simp [taking, here]
    | some outcome => simp [taking, here, Outcome.abandons]
  simp only [RuledOut, takings_snoc, List.mem_append, or_and_right, exists_or, last]

theorem any_abandons_iff : (takings cs run).any (·.outcome.abandons) = true ↔ RuledOut cs run := by
  simp [RuledOut]

theorem found_snoc : found cs (run ++ [r]) = found cs run ++ (taking cs run r).filterMap Taking.match? := by
  simp [found, takings_snoc]

-- Once a seed is ruled out, no row of it can fail any more.
theorem faultIn_of_ruledOut (out : RuledOut cs run) : faultIn cs (run ++ rest) = faultIn cs run := by
  simp [faultIn, takings_append, Taking.heeded_append, any_abandons_iff.mpr out]

theorem faultIn_live_append (live : ¬ RuledOut cs run) : faultIn cs (run ++ rest) =
    (faultIn cs run).or ((Taking.heeded (takingsAfter cs run rest)).findSome? Taking.fault?) := by
  have quiet : (takings cs run).any (·.outcome.abandons) = false := by
    simpa [RuledOut] using live
  simp [faultIn, takings_append, Taking.heeded_append, quiet, Taking.heeded_of_live quiet, List.findSome?_append]

theorem faultIn_snoc (sound : faultIn cs run = none) (live : ¬ RuledOut cs run) :
    faultIn cs (run ++ [r]) = (taking cs run r).findSome? Taking.fault? := by
  rw [faultIn_live_append live, sound, Option.none_or]
  cases here : outcomeAt cs run r <;> simp [takingsAfter, taking, here, Taking.heeded]

theorem faultIn_append (fault : faultIn cs run = some f) : faultIn cs (run ++ rest) = some f := by
  by_cases out : RuledOut cs run
  · rw [faultIn_of_ruledOut out, fault]
  · rw [faultIn_live_append out, fault, Option.some_or]

theorem exists_of_outcomeAt {outcome : Outcome} (counted : outcomeAt cs before r = some outcome) :
    ∃ i, ∃ here : i < cs.length,
      Tally.outcome { criterion := cs[i], count := share cs (before ++ [r]) i } = outcome := by
  obtain ⟨i, -, counted⟩ := Option.bind_eq_some_iff.mp counted
  obtain ⟨c, here, counted⟩ := Option.map_eq_some_iff.mp counted
  obtain ⟨bound, rfl⟩ := List.getElem?_eq_some_iff.mp here
  exact ⟨i, bound, counted⟩

-- A count past an upper bound stays past it, as quantities only add up.
theorem not_qualifies_of_ruledOut (nonneg : ∀ r ∈ run, 0 ≤ r.quantity) (out : RuledOut cs run) :
    ¬ Qualifies cs run := by
  rintro ⟨-, met⟩
  obtain ⟨t, member, exits⟩ := out
  obtain ⟨here, later, rfl, counted⟩ := mem_takingsAfter member
  have exit : t.outcome = .earlyExit := by simpa [Outcome.abandons] using exits
  obtain ⟨i, bound, past⟩ := exists_of_outcomeAt (exit ▸ counted)
  have whole : share cs (here ++ t.row :: later) i = share cs (here ++ [t.row]) i + share cs later i := by
    rw [← share_append, List.append_assoc, List.singleton_append]
  have more : 0 ≤ share cs later i := share_nonneg fun r member => nonneg r (by simp [member])
  have meets := met i bound
  rw [List.nil_append, Tally.outcome_exit_iff] at past
  dsimp only at past
  rcases past with ⟨mode, past⟩ | ⟨mode, past⟩
  · simp only [Met, mode, CountMode.Holds] at meets
    omega
  · simp only [Met, mode, CountMode.Holds] at meets
    omega

theorem kept_iff_qualifies (nonneg : ∀ r ∈ run, 0 ≤ r.quantity) : Kept cs run ↔ Qualifies cs run :=
  ⟨fun kept => kept.2, fun all => ⟨fun out => not_qualifies_of_ruledOut nonneg out all, all⟩⟩

end Criterion

end SeedSearch
