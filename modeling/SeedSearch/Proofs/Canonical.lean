import SeedSearch.Proofs.Occurrence
import SeedSearch.Proofs.Spelling

namespace SeedSearch.Criterion

def termAt (c : Criterion) : Slot → Option Term
  | .count => some (.count c.mode c.target.toNat)
  | .depth => some (.depth c.maxDepth.toNat)
  | .enchantment => c.enchantment.map .enchantment
  | .kind => c.kind.map .kind
  | .runic => match c.runic with
    | .none => none
    | .keyword => some .anyRunic
    | .named fragment => some (.runic fragment)
  | .vault => match c.vault with
    | .anywhere => none
    | .inside => some (.vault true)
    | .outside => some (.vault false)
  | .magic => c.magic.map .magic
  | .status => match c.status with
    | .none => none
    | .keyword => some .legendary
    | .named name => some (.status name)
  | .mutation => match c.mutation with
    | .none => none
    | .keyword => some .anyMutation
    | .named fragment => some (.mutation fragment)

-- The order of the slots in writing: a keyword comes before the kind, a name of
-- a runic or of a mutation after it.
def order (c : Criterion) : List Slot :=
  match c.runic.isKeyword, c.mutation.isKeyword with
  | true, true => [.count, .depth, .enchantment, .runic, .status, .mutation, .kind, .vault, .magic]
  | true, false => [.count, .depth, .enchantment, .runic, .status, .kind, .mutation, .vault, .magic]
  | false, true => [.count, .depth, .enchantment, .status, .mutation, .kind, .runic, .vault, .magic]
  | false, false => [.count, .depth, .enchantment, .status, .kind, .runic, .mutation, .vault, .magic]

def terms (c : Criterion) : List Term := c.order.filterMap c.termAt

structure Unsigned (c : Criterion) : Prop where
  target : 0 ≤ c.target
  maxDepth : 0 ≤ c.maxDepth

variable {c : Criterion} {cs : List Criterion} {category : Category} {depth : Int} {t u : Term} {slot : Slot}

theorem order_nodup : c.order.Nodup := by
  unfold order
  cases c.runic.isKeyword <;> cases c.mutation.isKeyword <;> decide

theorem mem_order (slot : Slot) : slot ∈ c.order := by
  unfold order
  cases c.runic.isKeyword <;> cases c.mutation.isKeyword <;> cases slot <;> decide

theorem slot_of_termAt (shows : c.termAt slot = some t) : t.slot = slot := by
  cases slot <;> simp only [termAt] at shows
  case count | depth => cases shows; rfl
  case enchantment | kind | magic =>
    obtain ⟨_, _, rfl⟩ := Option.map_eq_some_iff.mp shows
    rfl
  case runic | vault | status | mutation =>
    split at shows <;> cases shows <;> rfl

theorem mem_terms : t ∈ c.terms ↔ c.termAt t.slot = some t := by
  constructor
  · intro member
    obtain ⟨slot, -, shows⟩ := List.mem_filterMap.mp member
    rw [slot_of_termAt shows, shows]
  · intro shows
    exact List.mem_filterMap.mpr ⟨t.slot, mem_order _, shows⟩

theorem terms_distinct : (c.terms.map Term.slot).Nodup := by
  refine List.Nodup.sublist ?_ (order_nodup (c := c))
  unfold terms
  induction c.order with
  | nil => exact List.Sublist.refl _
  | cons slot rest ih =>
    cases shows : c.termAt slot with
    | none =>
      rw [List.filterMap_cons_none shows]
      exact ih.cons _
    | some t =>
      rw [List.filterMap_cons_some shows, List.map_cons, slot_of_termAt shows]
      exact ih.cons_cons _

theorem shown_of_mem (unsigned : c.Unsigned) (member : t ∈ c.terms) : t.Shown c := by
  have shows := mem_terms.mp member
  have target := Int.toNat_of_nonneg unsigned.target
  have maxDepth := Int.toNat_of_nonneg unsigned.maxDepth
  cases t <;> simp only [Term.slot, termAt] at shows
  case count | depth => cases shows; simp [Term.Shown, target, maxDepth]
  case enchantment | kind | magic => simpa [Term.Shown] using shows
  all_goals
    split at shows <;> cases shows <;> simp_all [Term.Shown]

theorem termAt_of_shown (shown : t.Shown c) : c.termAt t.slot = some t := by
  cases t with
  | vault inside => cases inside <;> simp_all [Term.Shown, Term.slot, termAt]
  | _ => simp_all [Term.Shown, Term.slot, termAt]

theorem eq_of_shown (first : t.Shown c) (second : u.Shown c) (same : t.slot = u.slot) : t = u := by
  have shows := termAt_of_shown first
  rw [same, termAt_of_shown second] at shows
  exact (Option.some.inj shows).symm

theorem same_blank (free : c.termAt slot = none) : slot.Same c { category, maxDepth := depth } := by
  cases slot <;> simp only [termAt] at free
  case count | depth => cases free
  case enchantment | kind | magic => exact Option.map_eq_none_iff.mp free
  all_goals
    split at free <;> cases free
    assumption

theorem madeOf_terms (unsigned : c.Unsigned) (kept : c.category = category) : MadeOf category depth c.terms c := by
  have shown : ∀ t ∈ c.terms, t.Shown c := fun t member => shown_of_mem unsigned member
  have blank : ∀ slot, slot ∉ c.terms.map Term.slot → slot.Same c { category, maxDepth := depth } := by
    intro slot free
    cases shows : c.termAt slot with
    | none => exact same_blank shows
    | some t =>
      have filled := slot_of_termAt shows
      exact absurd (List.mem_map.mpr ⟨t, mem_terms.mpr (filled ▸ shows), filled⟩) free
  exact ⟨kept, shown, blank, fun pair =>
    pair.ofParts_demand terms_distinct shown fun free => Demand.Slot.blank_demand (blank _ free)⟩

theorem order_head : ∃ rest, c.order = .count :: rest := by
  unfold order
  cases c.runic.isKeyword <;> cases c.mutation.isKeyword <;> exact ⟨_, rfl⟩

def spelled (c : Criterion) (slot : Slot) : List String := ((c.termAt slot).map Term.token).toList

theorem map_token_terms : c.terms.map Term.token = c.order.flatMap c.spelled := by
  rw [terms, List.map_filterMap, List.filterMap_eq_flatMap_toList]
  rfl

theorem spelled_count (unsigned : c.Unsigned) : c.spelled .count = [c.mode.sign ++ toString c.target] := by
  obtain ⟨n, same⟩ := Int.eq_ofNat_of_zero_le unsigned.target
  rw [spelled, termAt, same]
  rfl

theorem spelled_depth (unsigned : c.Unsigned) : c.spelled .depth = ["d" ++ toString c.maxDepth] := by
  obtain ⟨n, same⟩ := Int.eq_ofNat_of_zero_le unsigned.maxDepth
  rw [spelled, termAt, same]
  rfl

theorem spelled_enchantment : c.spelled .enchantment = (c.enchantment.map Threshold.token).toList := by
  rw [spelled, termAt, Option.map_map]
  rfl

theorem spelled_kind : c.spelled .kind = c.kind.toList := by
  rw [spelled, termAt, Option.map_map]
  cases c.kind <;> rfl

theorem spelled_magic : c.spelled .magic = (c.magic.map Polarity.name).toList := by
  rw [spelled, termAt, Option.map_map]
  rfl

theorem spelled_runic : c.spelled .runic = given c.runic.isKeyword "runic" ++ c.runic.fragment?.toList := by
  unfold spelled termAt
  cases c.runic <;> rfl

theorem spelled_status : c.spelled .status = given c.status.isKeyword "legendary" ++ c.status.fragment?.toList := by
  unfold spelled termAt
  cases c.status <;> rfl

theorem spelled_mutation :
    c.spelled .mutation = given c.mutation.isKeyword "mutation" ++ c.mutation.fragment?.toList := by
  unfold spelled termAt
  cases c.mutation <;> rfl

theorem spelled_vault : c.spelled .vault = c.vault.token?.toList := by
  unfold spelled termAt
  cases c.vault <;> rfl

theorem tokens_eq (unsigned : c.Unsigned) : c.tokens = c.terms.map Term.token := by
  rw [map_token_terms]
  unfold tokens order
  -- The two slots whose place in writing depends on what fills them.
  cases runic : c.runic <;> cases mutation : c.mutation <;>
    simp [Demand.isKeyword, Demand.fragment?, given, runic, mutation, spelled_count unsigned,
      spelled_depth unsigned, spelled_enchantment, spelled_kind, spelled_magic, spelled_runic,
      spelled_status, spelled_mutation, spelled_vault]

end SeedSearch.Criterion
