import Mathlib.Algebra.BigOperators.Group.List.Basic
import SeedSearch.Proofs.Harvest

namespace SeedSearch
open Catalog (Row)
open Criterion

namespace Criterion

-- The row goes to a criterion that is after a quantity from below only.
def Gathered (cs : List Criterion) (r : Row) : Prop :=
  ∃ i, ∃ here : i < cs.length, taker cs r = some i ∧ cs[i].mode = .atLeast

structure Scannable (cs : List Criterion) (seed : Int) (rows : List Row) : Prop where
  one : ∀ r ∈ rows, r.seed = seed
  nonneg : ∀ r ∈ rows, 0 ≤ r.quantity
  known : ∀ r ∈ rows, (taker cs r).isSome = true → ∃ o, r.object = .ok o

-- The same rows in any order, with more of what is gathered and with further
-- rows of the seed that are gathered or not taken at all.
inductive Enriched (cs : List Criterion) (seed : Int) : List Row → List Row → Prop where
  | perm (order : rows.Perm others) : Enriched cs seed rows others
  | raise (gathered : Gathered cs r) (more : r.quantity ≤ n) :
      Enriched cs seed (before ++ r :: after) (before ++ { r with quantity := n } :: after)
  | insert (spare : taker cs r = none ∨ Gathered cs r ∧ ∃ o, r.object = .ok o) (own : r.seed = seed)
      (nonneg : 0 ≤ r.quantity) : Enriched cs seed (before ++ after) (before ++ r :: after)
  | trans (first : Enriched cs seed rows middle) (second : Enriched cs seed middle others) :
      Enriched cs seed rows others

-- Nothing is lost, and what is not gathered stays as it is.
structure Richer (cs : List Criterion) (rows others : List Row) : Prop where
  taken : (∃ r ∈ rows, (taker cs r).isSome = true) → ∃ r ∈ others, (taker cs r).isSome = true
  more : ∀ i (here : i < cs.length), cs[i].mode = .atLeast → share cs rows i ≤ share cs others i
  same : ∀ i (here : i < cs.length), cs[i].mode ≠ .atLeast → share cs others i = share cs rows i

variable {cs : List Criterion} {seed n : Int} {rows others before after : List Row} {r : Row}

theorem share_perm (order : rows.Perm others) (i : Nat) : share cs rows i = share cs others i :=
  ((order.filter _).map _).sum_eq

theorem share_insert (before after : List Row) (r : Row) (i : Nat) : share cs (before ++ r :: after) i =
    share cs (before ++ after) i + if taker cs r = some i then r.quantity else 0 := by
  have split : before ++ r :: after = before ++ ([r] ++ after) := rfl
  rw [split, share_append, share_append, share_append, share_single]
  omega

-- Whether a row is taken, and by which criterion, does not depend on its quantity.
theorem taker_quantity (cs : List Criterion) (r : Row) (n : Int) : taker cs { r with quantity := n } = taker cs r := rfl

theorem share_raise (before after : List Row) (r : Row) (n : Int) (i : Nat) :
    share cs (before ++ { r with quantity := n } :: after) i =
      share cs (before ++ r :: after) i + if taker cs r = some i then n - r.quantity else 0 := by
  rw [share_insert, share_insert, taker_quantity cs r n]
  dsimp only
  split <;> omega

theorem describe_quantity (apart : r.category ≠ .gold) :
    ({ r with quantity := n } : Row).describe = r.describe := by
  cases category : r.category with
  | gold => exact absurd category apart
  | _ => simp only [Row.describe, Row.knownKind, Row.knownEnchantment, category]

theorem known_quantity (known : ∃ o, r.object = .ok o) : ∃ o, ({ r with quantity := n } : Row).object = .ok o := by
  obtain ⟨o, known⟩ := known
  by_cases gold : r.category = .gold
  · unfold Row.object Row.describe at known ⊢
    simp only [gold, Row.gold] at known ⊢
    cases piles : Row.piles? r.kind with
    | error e => simp [piles] at known
    | ok count =>
      cases count with
      | none => simp [piles] at known
      | some count => exact ⟨_, rfl⟩
  · refine ⟨o, ?_⟩
    rw [← known]
    unfold Row.object
    rw [describe_quantity gold]

namespace Richer

theorem trans {middle : List Row} (first : Richer cs rows middle) (second : Richer cs middle others) :
    Richer cs rows others := by
  refine ⟨fun taken => second.taken (first.taken taken), ?_, ?_⟩
  · intro i here mode
    exact Int.le_trans (first.more i here mode) (second.more i here mode)
  · intro i here mode
    rw [second.same i here mode, first.same i here mode]

theorem perm (order : rows.Perm others) : Richer cs rows others := by
  refine ⟨?_, ?_, ?_⟩
  · rintro ⟨r, member, takes⟩
    exact ⟨r, order.mem_iff.mp member, takes⟩
  · intro i here mode
    exact Int.le_of_eq (share_perm order i)
  · intro i here mode
    exact (share_perm order i).symm

-- One more or one larger row, as far as it is gathered.
theorem grow {k : Int} (spare : taker cs r = none ∨ Gathered cs r) (more : 0 ≤ k)
    (taken : (∃ x ∈ rows, (taker cs x).isSome = true) → ∃ x ∈ others, (taker cs x).isSome = true)
    (shares : ∀ i, share cs others i = share cs rows i + if taker cs r = some i then k else 0) :
    Richer cs rows others := by
  refine ⟨taken, ?_, ?_⟩
  · intro i here mode
    rw [shares]
    split <;> omega
  · intro i here mode
    have free : taker cs r ≠ some i := by
      intro takes
      rcases spare with none | ⟨j, inside, taken, gathers⟩
      · rw [none] at takes
        cases takes
      · obtain rfl : j = i := Option.some.inj (taken.symm.trans takes)
        exact mode gathers
    rw [shares, if_neg free, Int.add_zero]

theorem insert (spare : taker cs r = none ∨ Gathered cs r) (nonneg : 0 ≤ r.quantity) :
    Richer cs (before ++ after) (before ++ r :: after) := by
  refine grow spare nonneg ?_ (share_insert before after r)
  rintro ⟨x, member, takes⟩
  refine ⟨x, ?_, takes⟩
  rcases List.mem_append.mp member with earlier | later
  · exact List.mem_append_left _ earlier
  · exact List.mem_append_right _ (List.mem_cons_of_mem _ later)

theorem raise (gathered : Gathered cs r) (more : r.quantity ≤ n) :
    Richer cs (before ++ r :: after) (before ++ { r with quantity := n } :: after) := by
  refine grow (Or.inr gathered) (Int.sub_nonneg.mpr more) ?_ (share_raise before after r n)
  rintro -
  obtain ⟨i, -, taken, -⟩ := gathered
  refine ⟨{ r with quantity := n }, by simp, ?_⟩
  rw [taker_quantity cs r n, taken, Option.isSome_some]

theorem qualifies (richer : Richer cs rows others) (whole : Qualifies cs rows) : Qualifies cs others := by
  obtain ⟨taken, met⟩ := whole
  refine ⟨richer.taken taken, ?_⟩
  intro i here
  have meets := met i here
  by_cases mode : cs[i].mode = .atLeast
  · have more := richer.more i here mode
    simp only [Met, mode, CountMode.Holds] at meets ⊢
    omega
  · rw [richer.same i here mode]
    exact meets

end Richer

namespace Enriched

theorem richer (enriched : Enriched cs seed rows others) : Richer cs rows others := by
  induction enriched with
  | perm order => exact .perm order
  | raise gathered more => exact .raise gathered more
  | insert spare own nonneg => exact .insert (spare.imp_right And.left) nonneg
  | trans first second ih later => exact ih.trans later

theorem scannable (enriched : Enriched cs seed rows others) (scannable : Scannable cs seed rows) :
    Scannable cs seed others := by
  induction enriched with
  | perm order =>
    refine ⟨?_, ?_, ?_⟩
    · exact fun x member => scannable.one x (order.mem_iff.mpr member)
    · exact fun x member => scannable.nonneg x (order.mem_iff.mpr member)
    · exact fun x member => scannable.known x (order.mem_iff.mpr member)
  | @raise r n before after gathered more =>
    obtain ⟨one, nonneg, known⟩ := scannable
    simp only [List.forall_mem_append, List.forall_mem_cons] at one nonneg known
    refine ⟨?_, ?_, ?_⟩ <;> simp only [List.forall_mem_append, List.forall_mem_cons]
    · exact one
    · exact ⟨nonneg.1, Int.le_trans nonneg.2.1 more, nonneg.2.2⟩
    · exact ⟨known.1, fun takes => known_quantity (known.2.1 takes), known.2.2⟩
  | @insert r before after spare own positive =>
    obtain ⟨one, nonneg, known⟩ := scannable
    simp only [List.forall_mem_append] at one nonneg known
    refine ⟨?_, ?_, ?_⟩ <;> simp only [List.forall_mem_append, List.forall_mem_cons]
    · exact ⟨one.1, own, one.2⟩
    · exact ⟨nonneg.1, positive, nonneg.2⟩
    · refine ⟨known.1, fun takes => ?_, known.2⟩
      rcases spare with none | ⟨-, object⟩
      · rw [none] at takes
        cases takes
      · exact object
  | trans first second ih later => exact later (ih scannable)

-- Rows that are left out by a rule which does not look at quantities.
theorem filter {p : Row → Bool} (blind : ∀ r n, p { r with quantity := n } = p r)
    (enriched : Enriched cs seed rows others) : Enriched cs seed (rows.filter p) (others.filter p) := by
  induction enriched with
  | perm order => exact .perm (order.filter p)
  | @raise r n before after gathered more =>
    simp only [List.filter_append, List.filter_cons, blind]
    by_cases inside : p r = true
    · simp only [inside, if_true]
      exact .raise gathered more
    · simp only [inside]
      exact .perm (.refl _)
  | @insert r before after spare own nonneg =>
    simp only [List.filter_append, List.filter_cons]
    by_cases inside : p r = true
    · simp only [inside, if_true]
      exact .insert spare own nonneg
    · simp only [inside]
      exact .perm (.refl _)
  | trans first second ih later => exact ih.trans later

end Enriched

end Criterion

namespace Query

variable {q : Query} {seed : Int} {rows : List Row}

structure Commits (q : Query) (rows : List Row) : Prop where
  returns : (q.scan { items := rows }).committed = .ok 1
  counts : (q.scan { items := rows }).query.successes = q.successes + 1
  reports : (q.scan { items := rows }).query.results = q.results ++ found q.criteria (rows.filter q.inBounds)

theorem runs_one (one : ∀ r ∈ rows, r.seed = seed) (some : rows.filter q.inBounds ≠ []) :
    q.runs rows = [rows.filter q.inBounds] := by
  have own : ∀ r ∈ rows.filter q.inBounds, r.seed = seed := fun r member => one r (List.mem_filter.mp member).1
  have alone : seedRuns (rows.filter q.inBounds ++ []) = rows.filter q.inBounds :: seedRuns [] :=
    seedRuns_append some own (by simp)
  rw [List.append_nil] at alone
  exact alone

theorem mem_runs_one {run : List Row} (one : ∀ r ∈ rows, r.seed = seed) (member : run ∈ q.runs rows) :
    run = rows.filter q.inBounds := by
  by_cases none : rows.filter q.inBounds = []
  · rw [runs, none] at member
    cases member
  · rw [runs_one one none] at member
    exact List.mem_singleton.mp member

theorem commits_iff (short : (q.successes : Int) < q.target) (scannable : Scannable q.criteria seed rows) :
    q.Commits rows ↔ Qualifies q.criteria (rows.filter q.inBounds) := by
  obtain ⟨committed, successes, results, -⟩ := q.scan_finds_wanted rows short scannable.nonneg
    fun r member _ takes => scannable.known r member (taker_isSome.mpr takes)
  have alone : q.Commits rows ↔ q.wanted rows = [rows.filter q.inBounds] := by
    constructor
    · intro found
      have one : (q.wanted rows).length = 1 := Except.ok.inj (committed.symm.trans found.returns)
      obtain ⟨run, wanted⟩ := List.length_eq_one_iff.mp one
      have member : run ∈ q.runs rows := List.mem_of_mem_filter (List.mem_of_mem_take (wanted ▸ List.mem_singleton_self run))
      rw [wanted, mem_runs_one scannable.one member]
    · intro wanted
      rw [wanted] at committed successes results
      exact ⟨committed, successes, by simpa using results⟩
  rw [alone]
  by_cases none : rows.filter q.inBounds = []
  · have lost : ¬ Qualifies q.criteria [] := by
      rintro ⟨⟨r, member, -⟩, -⟩
      cases member
    have runs : q.runs rows = [] := by
      rw [runs, none]
      rfl
    simp [wanted, runs, none, lost]
  · obtain ⟨m, missing⟩ : ∃ m, q.missing = m + 1 := by
      refine Nat.exists_eq_succ_of_ne_zero ?_
      rw [missing]
      omega
    by_cases qualifies : Qualifies q.criteria (rows.filter q.inBounds)
    · simp [wanted, runs_one scannable.one none, missing, qualifies]
    · simp [wanted, runs_one scannable.one none, qualifies]

-- A seed that is found stays so whatever the order of its rows, and whatever is
-- added to them that is gathered or not taken. The order alone never matters.
theorem commits_enriched (q : Query) (seed : Int) (rows : List Row) (short : (q.successes : Int) < q.target)
    (scannable : Scannable q.criteria seed rows) :
    (∀ others, Enriched q.criteria seed rows others → q.Commits rows → q.Commits others) ∧
    ∀ others, rows.Perm others → (q.Commits others ↔ q.Commits rows) := by
  have enriches : ∀ others, Enriched q.criteria seed rows others → q.Commits rows → q.Commits others := by
    intro others enriched found
    have qualifies := (commits_iff short scannable).mp found
    have richer := (enriched.filter (p := q.inBounds) fun _ _ => rfl).richer
    exact (commits_iff short (enriched.scannable scannable)).mpr (richer.qualifies qualifies)
  refine ⟨enriches, ?_⟩
  intro others order
  have again : Scannable q.criteria seed others := (Enriched.perm order).scannable scannable
  have back : Richer q.criteria (others.filter q.inBounds) (rows.filter q.inBounds) := .perm (order.symm.filter _)
  constructor
  · intro found
    exact (commits_iff short scannable).mpr (back.qualifies ((commits_iff short again).mp found))
  · exact enriches others (.perm order)

def mango (seed quantity : Int) : Row := { goldRow seed quantity with category := .food, kind := "mango" }

def goldAndMango : Query :=
  .ofCriteria {} [{ category := .gold, target := 5 }, { category := .food, mode := .equalTo, target := 1 }]

-- The mango comes first, one heap of gold has grown and another one is new.
theorem commits_more_gold :
    goldAndMango.Commits [goldRow 1 2, goldRow 1 3, mango 1 1] ∧
    goldAndMango.Commits [mango 1 1, goldRow 1 9, goldRow 1 4, goldRow 1 3] := by
  have gathered : ∀ n, Gathered goldAndMango.criteria (goldRow 1 n) := by
    intro n
    have first : taker goldAndMango.criteria (goldRow 1 0) = some 0 := by decide +kernel
    exact ⟨0, by decide, (taker_quantity _ (goldRow 1 0) n).trans first, rfl⟩
  have objects : ∀ r ∈ [goldRow 1 2, goldRow 1 3, mango 1 1], r.object =
      .ok (if r.category = .gold then ⟨.gold, "gold pieces", .gold r.quantity 1⟩ else ⟨.food, "mango", .plain⟩) := by
    decide +kernel
  have scannable : Scannable goldAndMango.criteria 1 [goldRow 1 2, goldRow 1 3, mango 1 1] :=
    ⟨by decide, by decide, fun r member _ => ⟨_, objects r member⟩⟩
  obtain ⟨enriches, -⟩ := goldAndMango.commits_enriched 1 _ (by decide) scannable
  have found : goldAndMango.Commits [goldRow 1 2, goldRow 1 3, mango 1 1] :=
    (commits_iff (by decide) scannable).mpr (by decide +kernel)
  refine ⟨found, enriches _ ?_ found⟩
  have order : Enriched goldAndMango.criteria 1 [goldRow 1 2, goldRow 1 3, mango 1 1] [mango 1 1, goldRow 1 2, goldRow 1 3] :=
    .perm (by decide)
  have grown : Enriched goldAndMango.criteria 1 ([mango 1 1] ++ goldRow 1 2 :: [goldRow 1 3])
      ([mango 1 1] ++ { goldRow 1 2 with quantity := 9 } :: [goldRow 1 3]) :=
    .raise (gathered 2) (by decide : (2 : Int) ≤ 9)
  have joined : Enriched goldAndMango.criteria 1 ([mango 1 1, goldRow 1 9] ++ [goldRow 1 3])
      ([mango 1 1, goldRow 1 9] ++ goldRow 1 4 :: [goldRow 1 3]) :=
    .insert (Or.inr ⟨gathered 4, ⟨.gold, "gold pieces", .gold 4 1⟩, by decide +kernel⟩) rfl (by decide)
  exact order.trans (grown.trans joined)

end Query

end SeedSearch
