import SeedSearch.Report

namespace SeedSearch

namespace Json

def Fits (n : Int) : Prop := -0x8000000000000000 ≤ n ∧ n < 0x10000000000000000

instance (n : Int) : Decidable (Fits n) := inferInstanceAs (Decidable (_ ∧ _))

mutual

def ints : Json → List Int
  | int n => [n]
  | list items => intsOfItems items
  | table members => intsOfMembers members
  | _ => []

def intsOfItems : List Json → List Int
  | [] => []
  | j :: rest => ints j ++ intsOfItems rest

def intsOfMembers : List (String × Json) → List Int
  | [] => []
  | (_, j) :: rest => ints j ++ intsOfMembers rest

end

theorem intsOfItems_eq (items : List Json) : intsOfItems items = items.flatMap ints := by
  induction items with
  | nil => rfl
  | cons j rest ih => rw [intsOfItems, ih, List.flatMap_cons]

theorem intsOfMembers_eq (members : List (String × Json)) : intsOfMembers members = members.flatMap (ints ·.2) := by
  induction members with
  | nil => rfl
  | cons m rest ih => rw [intsOfMembers, ih, List.flatMap_cons]

theorem ints_opt (given : Option Int) : (opt int given).ints = given.toList := by cases given <;> rfl

theorem ints_optText (given : Option String) : (opt text given).ints = [] := by cases given <;> rfl

-- A document of whole texts, with no more levels of lists and tables than these.
inductive Within : Nat → Json → Prop where
  | null {levels : Nat} : Within levels null
  | bool {levels : Nat} {b : Bool} : Within levels (bool b)
  | int {levels : Nat} {n : Int} : Within levels (int n)
  | text {levels : Nat} {s : String} : Within levels (text s)
  | list {levels : Nat} {items : List Json} (all : ∀ j ∈ items, Within levels j) : Within (levels+1) (list items)
  | table {levels : Nat} {members : List (String × Json)} (all : ∀ m ∈ members, Within levels m.2) :
      Within (levels+1) (table members)

variable {levels : Nat} {j : Json} {items : List Json} {members : List (String × Json)}

theorem Within.opt {α : Type} {f : α → Json} (each : ∀ a, Within levels (f a)) (given : Option α) :
    Within levels (opt f given) := by
  cases given with
  | none => exact .null
  | some a => exact each a

theorem Within.mono (within : Within levels j) {more : Nat} (enough : levels ≤ more) : Within more j := by
  induction within generalizing more with
  | null => exact .null
  | bool => exact .bool
  | int => exact .int
  | text => exact .text
  | list all ih =>
    obtain ⟨more, rfl⟩ : ∃ m, more = m + 1 := ⟨more - 1, by omega⟩
    exact .list fun j member => ih j member (by omega)
  | table all ih =>
    obtain ⟨more, rfl⟩ : ∃ m, more = m + 1 := ⟨more - 1, by omega⟩
    exact .table fun m member => ih m member (by omega)

def overflow? (all : List Int) : Option Flaw := if all.all fun n => Fits n then none else some .overflow

theorem overflow_append (left right : List Int) : overflow? (left ++ right) = (overflow? left).or (overflow? right) := by
  unfold overflow?
  rw [List.all_append]
  cases left.all fun n => Fits n with
  | true => simp
  | false => simp

theorem overflow_eq_none_iff {all : List Int} : overflow? all = none ↔ ∀ n ∈ all, Fits n := by
  simp [overflow?]

theorem flawOfItems_eq (each : ∀ j ∈ items, j.flawWithin? levels = overflow? j.ints) :
    flawOfItems? levels items = overflow? (items.flatMap ints) := by
  induction items with
  | nil => simp [flawOfItems?, overflow?]
  | cons j rest ih =>
    obtain ⟨first, later⟩ := List.forall_mem_cons.mp each
    rw [flawOfItems?, first, ih later, List.flatMap_cons, overflow_append]

theorem flawOfMembers_eq (each : ∀ m ∈ members, m.2.flawWithin? levels = overflow? m.2.ints) :
    flawOfMembers? levels members = overflow? (members.flatMap (ints ·.2)) := by
  induction members with
  | nil => simp [flawOfMembers?, overflow?]
  | cons m rest ih =>
    obtain ⟨first, later⟩ := List.forall_mem_cons.mp each
    rw [flawOfMembers?, first, ih later, List.flatMap_cons, overflow_append]

-- Integers are all that can be wrong with such a document.
theorem Within.flaw (within : Within levels j) : j.flawWithin? levels = overflow? j.ints := by
  induction within with
  | null | bool | text => simp [flawWithin?, ints, overflow?]
  | @int _ n =>
    have same : (-0x8000000000000000 ≤ n && n < 0x10000000000000000) = decide (Fits n) := (Bool.decide_and _ _).symm
    simp only [flawWithin?, ints, overflow?, List.all_cons, List.all_nil, Bool.and_true, same]
  | @list levels items all ih =>
    rw [ints, intsOfItems_eq, ← flawOfItems_eq ih]
    cases items with
    | nil => rfl
    | cons j rest => rfl
  | @table levels members all ih =>
    rw [ints, intsOfMembers_eq, ← flawOfMembers_eq ih]
    rfl

theorem Within.pretty (within : Within levels j) (few : levels ≤ levelLimit) : j.pretty? =
    match overflow? j.ints with
    | none => .ok (j.pretty "")
    | some flaw => .error flaw := by
  rw [← (within.mono few).flaw]
  rfl

end Json

end SeedSearch
