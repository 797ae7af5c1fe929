import SeedSearch.Proofs.Regroup
import SeedSearch.Query

namespace SeedSearch
open Catalog (Row)
open Term (slotOf)

-- Over one kind of thing, over all gear, over all that can be carried.
def Category.breadth : Category → Nat
  | .equipment => 1
  | .item => 2
  | _ => 0

theorem Category.breadth_eq_zero_iff (c : Category) : c.breadth = 0 ↔ c ∈ concrete := by cases c <;> decide

theorem Category.breadth_eq_one_iff (c : Category) : c.breadth = 1 ↔ c = equipment := by cases c <;> decide

theorem Category.item_of_breadth_le {c : Category} (far : item.breadth ≤ c.breadth) : c = item := by
  revert far
  cases c <;> decide

namespace Criterion

variable {given : Terms} {depth : Int} {cs own : List Criterion} {category : Category} {tokens : List String}
  {c : Criterion}

def Cut (given : Terms) (category : Category) (parts : List (List String)) : Prop :=
  ∃ cuts, List.Forall₂ (Segmentation (slotOf category)) (given category) cuts ∧ parts = cuts.flatten

def MadeOfParts (category : Category) (depth : Int) : List (List String) → List Criterion → Prop :=
  List.Forall₂ fun part c => MadeOf category depth (termsOf category part) c

theorem made_of_compileTokens (compiled : compileTokens category tokens depth = .ok own) :
    ∃ parts, Segmentation (slotOf category) tokens parts ∧ MadeOfParts category depth parts own := by
  obtain ⟨-, terms, parts, cut, rfl⟩ := parts_of_compileTokens compiled
  refine ⟨parts, cut, ?_⟩
  rw [MadeOfParts, List.forall₂_map_right_iff, List.forall₂_same]
  intro part member
  refine madeOf_part depth (fun token here => terms token ?_) (cut.apart part member)
  exact cut.whole ▸ List.mem_flatten_of_mem member here

theorem portion_made (compiled : compile given depth = .ok cs) (category : Category) :
    ∃ parts, Cut given category parts ∧ MadeOfParts category depth parts (portion given depth category) := by
  have all := (compile_ok_iff.mp compiled).1 category
  unfold Cut portion
  generalize given category = occurrences at all
  induction occurrences with
  | nil => exact ⟨[], ⟨[], .nil, rfl⟩, .nil⟩
  | cons tokens rest ih =>
    obtain ⟨own, done⟩ := all tokens List.mem_cons_self
    obtain ⟨parts, cut, made⟩ := made_of_compileTokens done
    obtain ⟨_, ⟨cuts, later, rfl⟩, more⟩ := ih fun other member => all other (List.mem_cons_of_mem _ member)
    refine ⟨parts ++ cuts.flatten, ⟨parts :: cuts, .cons cut later, rfl⟩, ?_⟩
    rw [List.flatMap_cons, gain_of_ok done]
    exact List.rel_append made more

theorem portion_category (compiled : compile given depth = .ok cs) (member : c ∈ portion given depth category) :
    c.category = category := by
  obtain ⟨tokens, inside, here⟩ := List.mem_flatMap.mp member
  obtain ⟨own, done⟩ := (compile_ok_iff.mp compiled).1 category tokens inside
  obtain ⟨-, -, parts, -, rfl⟩ := parts_of_compileTokens done
  rw [gain_of_ok done] at here
  obtain ⟨part, -, rfl⟩ := List.mem_map.mp here
  exact Term.foldl_category

theorem filter_compiled (compiled : compile given depth = .ok cs) (category : Category) :
    cs.filter (fun c => c.category = category) = portion given depth category := by
  rw [(compile_ok_iff.mp compiled).2.1]
  exact filter_flatMap_own (by decide) (fun _ _ _ member => portion_category compiled member) category.mem_searchOrder

theorem breadth_of_compiled (compiled : compile given depth = .ok cs) :
    cs.Pairwise fun earlier later => earlier.category.breadth ≤ later.category.breadth := by
  have rises : Category.searchOrder.Pairwise fun a b => a.breadth ≤ b.breadth := by decide
  rw [(compile_ok_iff.mp compiled).2.1, List.pairwise_flatMap]
  constructor
  · intro category _
    refine List.pairwise_of_forall_mem_list fun a first b second => ?_
    exact Nat.le_of_eq (by rw [portion_category compiled first, portion_category compiled second])
  · refine rises.imp fun wider a first b second => ?_
    rw [portion_category compiled first, portion_category compiled second]
    exact wider

end Criterion

namespace Query
open Criterion

variable {q : Query} {r : Row} {ts : List Tally}

def CountedBy (q : Query) (r : Row) (t : Tally) (after : Query) : Prop :=
  ∃ before behind, q.tallies = before ++ t :: behind ∧
    after = { q with tallies := before ++ t.add r.quantity :: behind }

theorem takeRow_refused (refused : ∀ t ∈ ts, t.criterion.accepts r = false) : takeRow r ts = none := by
  induction ts with
  | nil => rfl
  | cons t rest ih =>
    rw [takeRow, if_neg (by simp [refused t List.mem_cons_self]),
      ih fun u member => refused u (List.mem_cons_of_mem _ member)]
    rfl

theorem exists_of_takeRow (accepted : ∃ t ∈ ts, t.criterion.accepts r = true) :
    ∃ before t behind, ts = before ++ t :: behind ∧ (∀ u ∈ before, u.criterion.accepts r = false) ∧
      t.criterion.accepts r = true ∧
      takeRow r ts = some (before ++ t.add r.quantity :: behind, (t.add r.quantity).outcome) := by
  induction ts with
  | nil => simp at accepted
  | cons t rest ih =>
    by_cases here : t.criterion.accepts r = true
    · exact ⟨[], t, rest, rfl, by simp, here, by rw [takeRow, if_pos here]; rfl⟩
    · have later : ∃ u ∈ rest, u.criterion.accepts r = true := by simpa [here] using accepted
      obtain ⟨before, u, behind, rfl, refused, takes, taken⟩ := ih later
      refine ⟨t :: before, u, behind, rfl, ?_, takes, by rw [takeRow, if_neg here, taken]; rfl⟩
      intro v member
      rcases List.mem_cons.mp member with rfl | inside
      · simpa using here
      · exact refused v inside

theorem evaluate_refused (refused : ∀ c ∈ q.criteria, c.accepts r = false) : q.evaluate r = (q, .ok none) := by
  have none : takeRow r q.tallies = none :=
    takeRow_refused fun t member => refused t.criterion (List.mem_map_of_mem member)
  rw [evaluate, none]

theorem evaluate_accepted {o : Object} (known : r.object = .ok o) (accepted : ∃ c ∈ q.criteria, c.accepts r = true) :
    ∃ t earlier later, q.criteria = earlier ++ t.criterion :: later ∧ (∀ c ∈ earlier, c.accepts r = false) ∧
      t.criterion.accepts r = true ∧ q.CountedBy r t (q.evaluate r).1 ∧
      (q.evaluate r).2 = .ok (some
        { seed := r.seed, depth := r.depth, object := o, outcome := (t.add r.quantity).outcome, vault := r.vault,
          carriedBy := r.carriedBy }) := by
  have some : ∃ t ∈ q.tallies, t.criterion.accepts r = true := by simpa [criteria] using accepted
  obtain ⟨before, t, behind, split, refused, takes, taken⟩ := exists_of_takeRow some
  refine ⟨t, before.map (·.criterion), behind.map (·.criterion), by simp [criteria, split], ?_, takes, ?_, ?_⟩
  · intro c member
    obtain ⟨u, inside, rfl⟩ := List.mem_map.mp member
    exact refused u inside
  · exact ⟨before, behind, split, by rw [evaluate, taken]⟩
  · rw [evaluate, taken, known]
    rfl

variable {given : Terms} {depth : Int} {cs earlier later : List Criterion} {c : Criterion}

theorem narrowest_of_first (compiled : compile given depth = .ok cs) (split : cs = earlier ++ c :: later)
    (refused : ∀ d ∈ earlier, d.accepts r = false) :
    ∀ d ∈ cs, d.accepts r = true → c.category.breadth ≤ d.category.breadth := by
  intro d member accepts
  have sorted := breadth_of_compiled compiled
  rw [split] at member sorted
  rcases List.mem_append.mp member with before | here
  · rw [refused d before] at accepts
    cases accepts
  · rcases List.mem_cons.mp here with rfl | behind
    · exact Nat.le_refl _
    · exact (List.pairwise_cons.mp (List.pairwise_append.mp sorted).2.1).1 d behind

theorem earliest_of_first (split : cs = earlier ++ c :: later) (refused : ∀ d ∈ earlier, d.accepts r = false)
    (takes : c.accepts r = true) :
    (cs.filter (·.category = c.category)).find? (·.accepts r) = some c := by
  have none : (earlier.filter (·.category = c.category)).find? (·.accepts r) = none := by
    rw [List.find?_eq_none]
    intro d member
    simpa using refused d (List.mem_of_mem_filter member)
  rw [split, List.filter_append, List.filter_cons_of_pos (by simp), List.find?_append, none, Option.none_or,
    List.find?_cons, takes]

-- Of the criteria of a compiled search that accept a row, only one counts it, and
-- that one is of the narrowest category among them; of those of its category, it
-- comes from the earliest tokens.
theorem evaluate_narrowest (compiled : compile given depth = .ok cs) (q : Query) (asked : q.criteria = cs) (r : Row)
    {o : Object} (known : r.object = .ok o) :
    ((q.evaluate r).2 = .ok none ↔ ∀ c ∈ cs, c.accepts r = false) ∧
    ((q.evaluate r).2 = .ok none → (q.evaluate r).1 = q) ∧
    ((q.evaluate r).2 ≠ .ok none → ∃ t : Tally, t.criterion.accepts r = true ∧ q.CountedBy r t (q.evaluate r).1 ∧
      (q.evaluate r).2 = .ok (some
        { seed := r.seed, depth := r.depth, object := o, outcome := (t.add r.quantity).outcome, vault := r.vault,
          carriedBy := r.carriedBy }) ∧
      ((∃ c ∈ cs, c.accepts r = true ∧ c.category ∈ Category.concrete) → t.criterion.category ∈ Category.concrete) ∧
      ((∃ c ∈ cs, c.accepts r = true ∧ c.category = .equipment) →
        (∀ c ∈ cs, c.accepts r = true → c.category ∉ Category.concrete) → t.criterion.category = .equipment) ∧
      (t.criterion.category = .item → ∀ c ∈ cs, c.accepts r = true → c.category = .item) ∧
      ∃ parts, Cut given t.criterion.category parts ∧
        MadeOfParts t.criterion.category depth parts (cs.filter (·.category = t.criterion.category)) ∧
        (cs.filter (·.category = t.criterion.category)).find? (·.accepts r) = some t.criterion) := by
  subst asked
  by_cases accepted : ∃ c ∈ q.criteria, c.accepts r = true
  · obtain ⟨t, earlier, later, split, refused, takes, counted, matched⟩ := evaluate_accepted known accepted
    have some : (q.evaluate r).2 ≠ .ok none := by rw [matched]; simp
    have narrowest := narrowest_of_first compiled split refused
    refine ⟨⟨fun none => absurd none some, ?_⟩, fun none => absurd none some, fun _ =>
      ⟨t, takes, counted, matched, ?_, ?_, ?_, ?_⟩⟩
    · intro none
      obtain ⟨c, member, accepts⟩ := accepted
      rw [none c member] at accepts
      cases accepts
    · rintro ⟨c, member, accepts, concrete⟩
      have bound := narrowest c member accepts
      rw [(Category.breadth_eq_zero_iff _).mpr concrete] at bound
      exact (Category.breadth_eq_zero_iff _).mp (Nat.le_zero.mp bound)
    · rintro ⟨c, member, accepts, gear⟩ wide
      have bound := narrowest c member accepts
      have own := wide t.criterion (by simp [split]) takes
      rw [← Category.breadth_eq_zero_iff] at own
      rw [(Category.breadth_eq_one_iff _).mpr gear] at bound
      exact (Category.breadth_eq_one_iff _).mp (by omega)
    · intro widest c member accepts
      exact Category.item_of_breadth_le (widest ▸ narrowest c member accepts)
    · obtain ⟨parts, cut, made⟩ := portion_made compiled t.criterion.category
      exact ⟨parts, cut, filter_compiled compiled _ ▸ made, earliest_of_first split refused takes⟩
  · have refused : ∀ c ∈ q.criteria, c.accepts r = false := by simpa using accepted
    rw [evaluate_refused refused]
    exact ⟨⟨fun _ => refused, fun _ => rfl⟩, fun _ => rfl, fun some => absurd rfl some⟩

def mail (kind : String) : Criterion := { category := .armor, kind := some kind }

def gearFrom (least : Int) : Criterion := { category := .equipment, enchantment := some ⟨least, false⟩ }

def itemAbove (depth : Int) : Criterion := { category := .item, maxDepth := depth }

def wideGear : Terms
  | .item => [["d9"]]
  | .equipment => [["+2", "+1"]]
  | .armor => [["mail", "plate"], ["scale"]]
  | _ => []

def wideQuery : Query where
  limits := {}
  tallies := [⟨mail "mail", 4⟩, ⟨mail "plate", 0⟩, ⟨mail "scale", 7⟩, ⟨gearFrom 2, 1⟩, ⟨gearFrom 1, 0⟩, ⟨itemAbove 9, 3⟩]

def scaleMail : Row :=
  { version := "", seed := 1, depth := 3, quantity := 1, category := .armor, kind := "scale mail",
    enchantment := some 2 }

-- Five of the six criteria accept the mail, and the first of them counts it.
theorem scaleMail_counted_once : compile wideGear 26 = .ok wideQuery.criteria ∧
    ∃ t, wideQuery.CountedBy scaleMail t (wideQuery.evaluate scaleMail).1 ∧ t.criterion = mail "mail" := by
  have compiled : compile wideGear 26 = .ok wideQuery.criteria := by decide +kernel
  have known : scaleMail.object = .ok ⟨.armor, "scale mail", .gear 2 none⟩ := by decide +kernel
  obtain ⟨-, -, takes⟩ := evaluate_narrowest compiled wideQuery rfl scaleMail known
  obtain ⟨t, -, counted, -, narrow, -, -, -, -, -, first⟩ := takes (by decide +kernel)
  refine ⟨compiled, t, counted, ?_⟩
  obtain ⟨before, behind, split, -⟩ := counted
  have concrete := narrow ⟨mail "mail", by decide, by decide +kernel, by decide⟩
  have armor : t.criterion.category = .armor := by
    have gear : ∀ u ∈ wideQuery.tallies, u.criterion.category ∈ Category.concrete →
      u.criterion.category = .armor := by decide
    exact gear t (by simp [split]) concrete
  have earliest :
      (wideQuery.criteria.filter (·.category = .armor)).find? (·.accepts scaleMail) = some (mail "mail") := by
    decide +kernel
  rw [armor, earliest] at first
  exact (Option.some.inj first).symm

end Query

end SeedSearch
