import SeedSearch.Query

namespace SeedSearch
open Catalog (Row)
open Text (isFragment)

namespace Category

theorem intersects_iff (a b : Category) :
    a.mask.intersects b.mask = true ↔ ∃ m ∈ a.members, m ∈ b.members := by
  have all : ∀ a ∈ searchOrder, ∀ b ∈ searchOrder,
      a.mask.intersects b.mask = true ↔ ∃ m ∈ a.members, m ∈ b.members := by
    decide +kernel
  exact all a a.mem_searchOrder b b.mem_searchOrder

end Category

-- One demand asks for no less than another. `sure` are the names that nothing has
-- which the keyword leaves out, and `stands` is the name that the keyword asks
-- for, if it asks for a certain one.
inductive Demand.Narrows (sure : String → Prop) (stands : Option String) : Demand → Demand → Prop where
  | free (d : Demand) : Narrows sure stands d .none
  | keyword : Narrows sure stands .keyword .keyword
  | name {g : String} (known : sure g) : Narrows sure stands (.named g) .keyword
  | part {f g : String} (inside : isFragment f g = true) : Narrows sure stands (.named g) (.named f)
  | stand {f g : String} (known : g ∈ stands) (inside : isFragment f g = true) :
      Narrows sure stands .keyword (.named f)

structure Threshold.Narrows (strict lax : Threshold) : Prop where
  direction : strict.atMost = lax.atMost
  above : lax.atMost = false → lax.value ≤ strict.value
  below : lax.atMost = true → strict.value ≤ lax.value

structure Criterion.Narrows (strict lax : Criterion) : Prop where
  members : ∀ m ∈ strict.category.members, m ∈ lax.category.members
  depth : strict.maxDepth ≤ lax.maxDepth
  kind : ∀ f ∈ lax.kind, ∃ g ∈ strict.kind, isFragment f g = true
  enchantment : ∀ t ∈ lax.enchantment, ∃ u ∈ strict.enchantment, u.Narrows t
  runic : Demand.Narrows (fun _ => True) none strict.runic lax.runic
  vault : lax.vault = .anywhere ∨ strict.vault = lax.vault
  magic : ∀ p ∈ lax.magic, strict.magic = some p
  status : Demand.Narrows (fun _ => False) (some Vocabulary.legendaryStatus) strict.status lax.status
  mutation : Demand.Narrows (fun g => g ≠ "") none strict.mutation lax.mutation

variable {strict lax : Criterion} {r : Row}

-- What a test has to be like for narrower demands to pass it less often.
theorem Demand.Narrows.holds {sure : String → Prop} {stands : Option String} {d e : Demand}
    (narrows : Demand.Narrows sure stands d e) (test : Demand → Bool) (free : test .none = true)
    (name : ∀ g, sure g → test (.named g) = true → test .keyword = true)
    (part : ∀ f g, isFragment f g = true → test (.named g) = true → test (.named f) = true)
    (stand : ∀ g ∈ stands, test .keyword = true → test (.named g) = true)
    (passed : test d = true) : test e = true := by
  cases narrows with
  | free => exact free
  | keyword => exact passed
  | name known => exact name _ known passed
  | part inside => exact part _ _ inside passed
  | stand known inside => exact part _ _ inside (stand _ known passed)

theorem Threshold.Narrows.accepts {u t : Threshold} (narrows : u.Narrows t) {enchantment : Int}
    (passed : u.accepts enchantment = true) : t.accepts enchantment = true := by
  unfold Threshold.accepts at passed ⊢
  rw [narrows.direction] at passed
  cases direction : t.atMost with
  | true =>
    have bound := narrows.below direction
    simp only [direction, if_true, decide_eq_true_eq] at passed ⊢
    omega
  | false =>
    have bound := narrows.above direction
    simp only [direction, Bool.false_eq_true, if_false, decide_eq_true_eq] at passed ⊢
    omega

theorem VaultRule.accepts_of_wider {rule other : VaultRule} (narrows : other = .anywhere ∨ rule = other)
    {inVault : Bool} (passed : rule.accepts inVault = true) : other.accepts inVault = true := by
  rcases narrows with rfl | rfl
  · rfl
  · exact passed

theorem passes_iff {α : Type} {asked : Option α} {test : α → Bool} :
    (asked.map test).getD true = true ↔ ∀ x ∈ asked, test x = true := by
  cases asked <;> simp

namespace Criterion

theorem enchantmentAccepts_iff {t : Threshold} : enchantmentAccepts t r = true ↔
    r.category.hasEnchantment = true ∧ ∃ e ∈ r.enchantment, t.accepts e = true := by
  unfold enchantmentAccepts
  cases r.enchantment <;> simp

theorem matchesRow_iff {c : Criterion} : c.matchesRow r = true ↔
    (∀ f ∈ c.kind, isFragment f r.kind = true) ∧ (∀ t ∈ c.enchantment, enchantmentAccepts t r = true) ∧
      runicAccepts c.runic r = true ∧ c.vault.accepts r.inVault = true ∧
      (∀ p ∈ c.magic, magicAccepts p r = true) ∧
      (r.category = .ally → statusAccepts c.status r = true ∧ mutationAccepts c.mutation r = true) := by
  simp only [matchesRow, Bool.and_eq_true, passes_iff, Bool.or_eq_true, and_assoc, decide_eq_true_eq, ne_eq,
    ← Decidable.imp_iff_not_or]

namespace Narrows

variable (narrows : strict.Narrows lax)
include narrows

theorem meets {k : Category} (met : strict.mask.intersects k.mask = true) : lax.mask.intersects k.mask = true := by
  obtain ⟨m, member, also⟩ := (Category.intersects_iff _ _).mp met
  exact (Category.intersects_iff _ _).mpr ⟨m, narrows.members m member, also⟩

theorem kind_accepts (passed : ∀ f ∈ strict.kind, isFragment f r.kind = true) :
    ∀ f ∈ lax.kind, isFragment f r.kind = true := by
  intro f asked
  obtain ⟨g, known, inside⟩ := narrows.kind f asked
  exact Text.isFragment_trans inside (passed g known)

theorem enchantment_accepts (passed : ∀ t ∈ strict.enchantment, enchantmentAccepts t r = true) :
    ∀ t ∈ lax.enchantment, enchantmentAccepts t r = true := by
  intro t asked
  obtain ⟨u, known, tight⟩ := narrows.enchantment t asked
  obtain ⟨enchantable, e, given, bound⟩ := enchantmentAccepts_iff.mp (passed u known)
  exact enchantmentAccepts_iff.mpr ⟨enchantable, e, given, tight.accepts bound⟩

theorem runic_accepts (passed : runicAccepts strict.runic r = true) : runicAccepts lax.runic r = true := by
  refine narrows.runic.holds (runicAccepts · r) rfl ?_ ?_ (by simp) passed
  · intro g _ named
    exact (Bool.and_eq_true_iff.mp named).1
  · intro f g inside named
    obtain ⟨some, here⟩ := Bool.and_eq_true_iff.mp named
    exact Bool.and_eq_true_iff.mpr ⟨some, Text.isFragment_trans inside here⟩

theorem status_accepts (passed : statusAccepts strict.status r = true) : statusAccepts lax.status r = true := by
  refine narrows.status.holds (statusAccepts · r) rfl (by simp) ?_ ?_ passed
  · intro f g inside named
    exact Text.isFragment_trans inside named
  · intro g known legendary
    obtain rfl := Option.some.inj known
    have same : r.allyStatus = Vocabulary.legendaryStatus := of_decide_eq_true legendary
    simp only [statusAccepts, same]
    decide

theorem mutation_accepts (passed : mutationAccepts strict.mutation r = true) :
    mutationAccepts lax.mutation r = true := by
  refine narrows.mutation.holds (mutationAccepts · r) rfl ?_ ?_ (by simp) passed
  · intro g some named
    refine decide_eq_true fun none => some ?_
    -- Only the empty text is a fragment of the empty one.
    have empty : isFragment g "" = true := none ▸ named
    simpa [isFragment, Text.occurs] using empty
  · intro f g inside named
    exact Text.isFragment_trans inside named

theorem matchesRow (passed : strict.matchesRow r = true) : lax.matchesRow r = true := by
  obtain ⟨kind, enchantment, runic, vault, magic, ally⟩ := matchesRow_iff.mp passed
  refine matchesRow_iff.mpr ⟨narrows.kind_accepts kind, narrows.enchantment_accepts enchantment,
    narrows.runic_accepts runic, VaultRule.accepts_of_wider narrows.vault vault, ?_, ?_⟩
  · intro p asked
    exact magic p (narrows.magic p asked)
  · intro isAlly
    obtain ⟨status, mutation⟩ := ally isAlly
    exact ⟨narrows.status_accepts status, narrows.mutation_accepts mutation⟩

end Narrows

-- Whatever a criterion accepts is accepted by every other one that asks for no
-- more in any field.
theorem accepts_of_narrower (strict lax : Criterion) (narrows : strict.Narrows lax) (r : Row)
    (accepted : strict.accepts r = true) : lax.accepts r = true := by
  simp only [accepts, Bool.and_eq_true, decide_eq_true_eq] at accepted ⊢
  obtain ⟨⟨met, shallow⟩, passed⟩ := accepted
  exact ⟨⟨narrows.meets met, Int.le_trans shallow narrows.depth⟩, narrows.matchesRow passed⟩

def legendaryMage : Criterion where
  category := .ally
  maxDepth := 9
  kind := some "battlemage"
  vault := .inside
  status := .keyword
  mutation := .named "explosive"

def changedMage : Criterion where
  category := .ally
  maxDepth := 12
  kind := some "mage"
  status := .named "all"
  mutation := .keyword

def caughtMage : Row :=
  { version := "", seed := 1, depth := 9, quantity := 1, category := .ally, kind := "dar battlemage",
    vault := some 2, allyStatus := "allied", mutation := "explosive" }

theorem changedMage_accepts : legendaryMage.Narrows changedMage ∧ legendaryMage.accepts caughtMage = true ∧
    changedMage.accepts caughtMage = true := by
  have kind : ∀ f, changedMage.kind = some f → ∃ g, legendaryMage.kind = some g ∧ Text.isFragment f g = true := by
    rintro f ⟨⟩
    exact ⟨"battlemage", rfl, by decide⟩
  have narrows : legendaryMage.Narrows changedMage :=
    { members := by decide +kernel
      depth := by decide
      kind
      enchantment := by simp [changedMage]
      runic := .free _
      vault := Or.inl rfl
      magic := by simp [changedMage]
      status := .stand rfl (by decide)
      mutation := .name (by decide) }
  have accepted : legendaryMage.accepts caughtMage = true := by decide +kernel
  exact ⟨narrows, accepted, accepts_of_narrower legendaryMage changedMage narrows caughtMage accepted⟩

end Criterion

end SeedSearch
