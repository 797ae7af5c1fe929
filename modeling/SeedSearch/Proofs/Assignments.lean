import Mathlib.Data.List.Nodup
import SeedSearch.Criterion.Term

namespace SeedSearch

def Slot.Same (a b : Criterion) : Slot → Prop
  | count => a.mode = b.mode ∧ a.target = b.target
  | depth => a.maxDepth = b.maxDepth
  | enchantment => a.enchantment = b.enchantment
  | kind => a.kind = b.kind
  | runic => a.runic = b.runic
  | vault => a.vault = b.vault
  | magic => a.magic = b.magic
  | status => a.status = b.status
  | mutation => a.mutation = b.mutation

def Term.Shown (c : Criterion) : Term → Prop
  | count mode target => c.mode = mode ∧ c.target = target
  | depth limit => c.maxDepth = limit
  | enchantment threshold => c.enchantment = some threshold
  | kind fragment => c.kind = some fragment
  | anyRunic => c.runic = .keyword
  | runic fragment => c.runic = .named fragment
  | vault inside => c.vault = if inside then .inside else .outside
  | magic polarity => c.magic = some polarity
  | legendary => c.status = .keyword
  | status name => c.status = .named name
  | anyMutation => c.mutation = .keyword
  | mutation fragment => c.mutation = .named fragment

namespace Demand.Slot

def slot : Demand.Slot → SeedSearch.Slot
  | runic => .runic
  | status => .status
  | mutation => .mutation

def demand (c : Criterion) : Demand.Slot → Demand
  | runic => c.runic
  | status => c.status
  | mutation => c.mutation

def name? : Demand.Slot → Term → Option String
  | runic, .runic fragment => some fragment
  | status, .status name => some name
  | mutation, .mutation fragment => some fragment
  | _, _ => Option.none

def isKeyword : Demand.Slot → Term → Bool
  | runic, .anyRunic | status, .legendary | mutation, .anyMutation => true
  | _, _ => false

end Demand.Slot

-- A criterion made of just these terms: it shows all of them, is blank wherever
-- none of them is, and no exclusive pair is set on both sides.
structure Criterion.MadeOf (category : Category) (depth : Int) (terms : List Term) (c : Criterion) :
    Prop where
  kept : c.category = category
  shown : ∀ t ∈ terms, t.Shown c
  blank : ∀ slot, slot ∉ terms.map Term.slot → slot.Same c { category, maxDepth := depth }
  accepted : ∀ pair : Demand.Slot,
    Demand.ofParts pair (terms.findSome? pair.name?) (terms.any pair.isKeyword) = .ok (pair.demand c)

variable {a b c : Criterion} {t u : Term} {terms : List Term} {category : Category} {depth : Int}

namespace Slot

theorem same_refl (slot : Slot) : slot.Same c c := by cases slot <;> simp [Same]

theorem Same.symm {slot : Slot} (same : slot.Same a b) : slot.Same b a := by
  cases slot <;> simp_all [Same]

theorem Same.trans {slot : Slot} (first : slot.Same a b) (second : slot.Same b c) : slot.Same a c := by
  cases slot <;> simp_all [Same]

end Slot

theorem Criterion.eq_of_same (category : a.category = b.category)
    (same : ∀ slot : Slot, slot.Same a b) : a = b := by
  obtain ⟨mode, target⟩ := same .count
  have depth := same .depth
  have enchantment := same .enchantment
  have kind := same .kind
  have runic := same .runic
  have vault := same .vault
  have magic := same .magic
  have status := same .status
  have mutation := same .mutation
  cases a
  cases b
  simp_all [Slot.Same]

namespace Term

theorem apply_category : (t.apply c).category = c.category := by cases t <;> rfl

theorem shown_apply : t.Shown (t.apply c) := by
  cases t <;> simp [Shown, apply, rule]

theorem apply_same {slot : Slot} (other : slot ≠ t.slot) : slot.Same (t.apply c) c := by
  cases t <;> cases slot <;> simp_all [Slot.Same, apply, Term.slot]

theorem Shown.congr (shown : t.Shown a) (same : t.slot.Same b a) : t.Shown b := by
  cases t <;> simp_all [Shown, Slot.Same, slot]

theorem Shown.same (first : t.Shown a) (second : t.Shown b) : t.slot.Same a b := by
  cases t <;> simp_all [Shown, Slot.Same, slot]

theorem foldl_category : (terms.foldl apply c).category = c.category := by
  induction terms generalizing c with
  | nil => rfl
  | cons t rest ih => rw [List.foldl_cons, ih, apply_category]

theorem foldl_same {slot : Slot} (free : slot ∉ terms.map Term.slot) :
    slot.Same (terms.foldl apply c) c := by
  induction terms generalizing c with
  | nil => exact slot.same_refl
  | cons t rest ih =>
    obtain ⟨here, later⟩ := not_or.mp (mt List.mem_cons.mpr free)
    exact (ih later).trans (apply_same here)

-- With a slot for each term, no term is overwritten by a later one.
theorem shown_foldl (distinct : (terms.map slot).Nodup) (member : t ∈ terms) :
    t.Shown (terms.foldl apply c) := by
  induction terms generalizing c with
  | nil => cases member
  | cons u rest ih =>
    obtain ⟨fresh, later⟩ := List.nodup_cons.mp distinct
    rcases List.mem_cons.mp member with rfl | member
    · exact shown_apply.congr (foldl_same fresh)
    · exact ih later member

end Term

namespace Demand.Slot

variable {pair : Demand.Slot} {name : String}

theorem of_name (found : pair.name? t = some name) :
    t.slot = pair.slot ∧ pair.isKeyword t = false ∧ ∀ c, t.Shown c → pair.demand c = .named name := by
  cases pair <;> cases t <;> simp_all [name?, isKeyword, slot, Term.slot, Term.Shown, demand]

theorem of_keyword (marked : pair.isKeyword t = true) :
    t.slot = pair.slot ∧ pair.name? t = Option.none ∧ ∀ c, t.Shown c → pair.demand c = .keyword := by
  cases pair <;> cases t <;> simp_all [name?, isKeyword, slot, Term.slot, Term.Shown, demand]

theorem blank_demand (same : pair.slot.Same c { category, maxDepth := depth }) :
    pair.demand c = .none := by
  cases pair <;> exact same

theorem named_or_keyword (filled : t.slot = pair.slot) :
    (∃ name, pair.name? t = some name) ∨ pair.isKeyword t = true := by
  cases pair <;> cases t <;> simp_all [name?, isKeyword, slot, Term.slot]

theorem parts_of_mem (distinct : (terms.map Term.slot).Nodup) (member : t ∈ terms)
    (filled : t.slot = pair.slot) :
    terms.findSome? pair.name? = pair.name? t ∧ terms.any pair.isKeyword = pair.isKeyword t := by
  have only : ∀ u ∈ terms, u.slot = pair.slot → u = t := fun u there same =>
    List.inj_on_of_nodup_map distinct there member (same.trans filled.symm)
  constructor
  · cases named : terms.findSome? pair.name? with
    | none => exact (List.findSome?_eq_none_iff.mp named t member).symm
    | some name =>
      obtain ⟨u, there, same⟩ := List.exists_of_findSome?_eq_some named
      rw [← only u there (of_name same).1, same]
  · cases marked : pair.isKeyword t with
    | true => exact List.any_eq_true.mpr ⟨t, member, marked⟩
    | false =>
      refine List.any_eq_false.mpr fun u there keyword => ?_
      rw [only u there (of_keyword keyword).1, marked] at keyword
      cases keyword

theorem ofParts_demand (distinct : (terms.map Term.slot).Nodup) (shown : ∀ t ∈ terms, t.Shown c)
    (blank : pair.slot ∉ terms.map Term.slot → pair.demand c = .none) :
    ofParts pair (terms.findSome? pair.name?) (terms.any pair.isKeyword) = .ok (pair.demand c) := by
  by_cases filled : pair.slot ∈ terms.map Term.slot
  · obtain ⟨t, member, same⟩ := List.mem_map.mp filled
    obtain ⟨names, marks⟩ := parts_of_mem distinct member same
    rw [names, marks]
    rcases named_or_keyword same with ⟨name, found⟩ | marked
    · obtain ⟨-, unmarked, demand⟩ := of_name found
      rw [found, unmarked, demand c (shown t member)]
      rfl
    · obtain ⟨-, unnamed, demand⟩ := of_keyword marked
      rw [unnamed, marked, demand c (shown t member)]
      rfl
  · have unnamed : terms.findSome? pair.name? = Option.none := by
      refine List.findSome?_eq_none_iff.mpr fun t member => ?_
      cases found : pair.name? t with
      | none => rfl
      | some name => exact absurd (List.mem_map.mpr ⟨t, member, (of_name found).1⟩) filled
    have unmarked : terms.any pair.isKeyword = false := by
      refine List.any_eq_false.mpr fun t member marked => ?_
      exact filled (List.mem_map.mpr ⟨t, member, (of_keyword marked).1⟩)
    rw [unnamed, unmarked, blank filled]
    rfl

end Demand.Slot

theorem Criterion.madeOf_foldl (distinct : (terms.map Term.slot).Nodup) :
    MadeOf category depth terms (terms.foldl Term.apply { category, maxDepth := depth }) := by
  have shown : ∀ t ∈ terms, t.Shown (terms.foldl Term.apply { category, maxDepth := depth }) :=
    fun t member => Term.shown_foldl distinct member
  refine { kept := Term.foldl_category, shown, blank := fun slot free => Term.foldl_same free, accepted := ?_ }
  intro pair
  refine pair.ofParts_demand distinct shown fun free => ?_
  exact Demand.Slot.blank_demand (Term.foldl_same free)

theorem Criterion.MadeOf.unique (first : MadeOf category depth terms a)
    (second : MadeOf category depth terms b) : a = b := by
  refine eq_of_same (first.kept.trans second.kept.symm) fun slot => ?_
  by_cases filled : slot ∈ terms.map Term.slot
  · obtain ⟨t, member, rfl⟩ := List.mem_map.mp filled
    exact (first.shown t member).same (second.shown t member)
  · exact (first.blank slot filled).trans (second.blank slot filled).symm

end SeedSearch
