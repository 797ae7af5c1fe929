import Mathlib.Data.List.Forall2
import SeedSearch.Catalog.Reader
import SeedSearch.Proofs.IntegerText

namespace SeedSearch.Catalog
open Text (Blank Repadded)
open Text.Numeral (Denotes)

def NumberColumn.Holds (column : NumberColumn) (n : Int) : Prop := column.low ≤ n ∧ n ≤ column.high

inductive NumberColumn.Refuses (column : NumberColumn) (raw : String) : Malformed → Prop
  | unread (unread : ∀ n, ¬ Denotes raw n) : Refuses column raw (.notInteger column raw)
  | outside {n : Int} (denotes : Denotes raw n) (outside : ¬ column.Holds n) : Refuses column raw (.outOfRange column n)

inductive NumberColumn.Admits (column : NumberColumn) (raw : String) : Option Int → Prop
  | absent (blank : Blank raw) : Admits column raw none
  | present {n : Int} (denotes : Denotes raw n) (holds : column.Holds n) : Admits column raw (some n)

inductive Names (raw : String) : Option String → Prop
  | absent (blank : Blank raw) : Names raw none
  | present (filled : ¬ Blank raw) : Names raw (some (Text.strip raw))

variable {column : NumberColumn} {raw other : String} {n : Int} {why : Malformed} {given : Option Int}
  {name : Option String}

theorem NumberColumn.Refuses.not_holds (refuses : column.Refuses raw why) : ¬ ∃ n, Denotes raw n ∧ column.Holds n := by
  rintro ⟨n, denotes, holds⟩
  cases refuses with
  | unread unread => exact unread n denotes
  | outside other outside => exact outside (denotes.unique other ▸ holds)

theorem not_blank (denotes : Denotes raw n) : ¬ Blank raw := by
  intro blank
  have read := Text.Numeral.integer_strip_iff.mpr denotes
  rw [Text.blank_iff.mp blank] at read
  cases read

theorem NumberColumn.Admits.holds (admits : column.Admits raw given) : ∀ n ∈ given, column.low ≤ n ∧ n ≤ column.high := by
  cases admits with
  | absent => simp
  | present denotes holds => simpa [NumberColumn.Holds] using holds

theorem NumberColumn.Admits.repadded (admits : column.Admits raw given) (same : Repadded raw other) :
    column.Admits other given := by
  cases admits with
  | absent blank => exact .absent (blank.repadded same)
  | present denotes holds => exact .present (denotes.repadded same) holds

theorem Names.own (names : Names raw name) : ∀ text ∈ name, Text.strip text = text ∧ text ≠ "" := by
  cases names with
  | absent => simp
  | present filled =>
    rintro _ ⟨⟩
    exact ⟨Text.strip_strip raw, fun empty => filled (Text.blank_iff.mpr empty)⟩

theorem Names.repadded (names : Names raw name) (same : Repadded raw other) : Names other name := by
  cases names with
  | absent blank => exact .absent (blank.repadded same)
  | present filled =>
    rw [Text.repadded_iff.mp same]
    exact .present fun blank => filled (blank.repadded same.symm)

namespace Row

def cell (fields : List String) (name : String) : String := ((columns.zip fields).lookup name).getD ""

inductive Check where
  | count
  | category
  | number (column : NumberColumn)
  | optional (column : NumberColumn)

namespace Check

def order : List Check :=
  [count, category, number seedColumn, number depthColumn, number quantityColumn, optional enchantmentColumn,
    optional vaultColumn, optional opensVaultColumn]

def Passes (fields : List String) : Check → Prop
  | count => fields.length = 13
  | category => ∃ c ∈ Category.concrete, Text.strip (cell fields "category") = c.name
  | number column => ∃ n, Denotes (cell fields column.name) n ∧ column.Holds n
  | optional column => ∃ given, column.Admits (cell fields column.name) given

inductive Blames (fields : List String) : Check → Malformed → Prop
  | count : Blames fields count (.fields fields.length)
  | category : Blames fields category (.category (cell fields "category"))
  | number {column : NumberColumn} {why : Malformed} (refused : column.Refuses (cell fields column.name) why) :
      Blames fields (number column) why
  | optional {column : NumberColumn} {why : Malformed} (refused : column.Refuses (cell fields column.name) why) :
      Blames fields (optional column) why

end Check

def FirstFault (fields : List String) (checks : List Check) (why : Malformed) : Prop :=
  ∃ before check after, checks = before ++ check :: after ∧ (∀ earlier ∈ before, earlier.Passes fields) ∧
    ¬ check.Passes fields ∧ check.Blames fields why

structure Reads (fields : List String) (line : Int) (r : Row) : Prop where
  count : fields.length = 13
  version : r.version = Text.strip (cell fields "dungeon_version")
  seed : Denotes (cell fields "seed") r.seed ∧ seedColumn.Holds r.seed
  depth : Denotes (cell fields "depth") r.depth ∧ depthColumn.Holds r.depth
  quantity : Denotes (cell fields "quantity") r.quantity ∧ quantityColumn.Holds r.quantity
  category : r.category ∈ Category.concrete ∧ Text.strip (cell fields "category") = r.category.name
  kind : r.kind = Text.strip (cell fields "kind")
  enchantment : enchantmentColumn.Admits (cell fields "enchantment") r.enchantment
  runic : r.runic = Text.strip (cell fields "runic")
  vault : vaultColumn.Admits (cell fields "vault_number") r.vault
  opensVault : opensVaultColumn.Admits (cell fields "opens_vault_number") r.opensVault
  carriedBy : Names (cell fields "carried_by_monster_name") r.carriedBy
  allyStatus : r.allyStatus = Text.strip (cell fields "ally_status_name")
  mutation : r.mutation = Text.strip (cell fields "mutation_name")
  line : r.line = some line

variable {line : Int} {fields others : List String} {checks : List Check} {check : Check} {r : Row} {c : Category}
  {text : String} {α β : Type}

theorem number_ok_iff : number column raw = .ok n ↔ Denotes raw n ∧ column.Holds n := by
  rw [← Text.Numeral.integer_strip_iff, number]
  constructor
  · intro read
    split at read
    · cases read
    · rename_i k denotes
      split at read
      · rename_i within
        cases read
        exact ⟨denotes, by simpa [NumberColumn.Holds] using within⟩
      · cases read
  · rintro ⟨denotes, within⟩
    rw [denotes]
    exact if_pos (by simpa [NumberColumn.Holds] using within)

theorem refuses_of_number (refused : number column raw = .error why) : column.Refuses raw why := by
  unfold number at refused
  split at refused
  · rename_i none
    cases refused
    refine .unread fun n denotes => ?_
    rw [Text.Numeral.integer_strip_iff.mpr denotes] at none
    cases none
  · rename_i n denotes
    split at refused
    · cases refused
    · rename_i outside
      cases refused
      exact .outside (Text.Numeral.integer_strip_iff.mp denotes) (by simpa [NumberColumn.Holds] using outside)

theorem optional_ok_iff : number? column raw = .ok given ↔ column.Admits raw given := by
  rw [number?]
  by_cases blank : Text.strip raw = ""
  · rw [if_pos blank]
    constructor
    · intro read
      cases read
      exact .absent (Text.blank_iff.mpr blank)
    · intro admits
      cases admits with
      | absent => rfl
      | present denotes => exact absurd (Text.blank_iff.mpr blank) (not_blank denotes)
  · rw [if_neg blank, map_eq_pure_bind]
    constructor
    · intro read
      obtain ⟨n, number, same⟩ := exists_of_bind read
      cases same
      exact .present (number_ok_iff.mp number).1 (number_ok_iff.mp number).2
    · intro admits
      cases admits with
      | absent empty => exact absurd (Text.blank_iff.mp empty) blank
      | present denotes holds =>
        rw [number_ok_iff.mpr ⟨denotes, holds⟩]
        rfl

theorem refuses_of_optional (refused : number? column raw = .error why) : ¬ Blank raw ∧ column.Refuses raw why := by
  rw [number?] at refused
  split at refused
  · cases refused
  · rename_i blank
    refine ⟨fun empty => blank (Text.blank_iff.mp empty), ?_⟩
    cases read : number column raw with
    | ok n =>
      rw [read] at refused
      cases refused
    | error reason =>
      rw [read] at refused
      cases refused
      exact refuses_of_number read

theorem names_iff : Names raw name ↔ text? raw = name := by
  rw [text?]
  constructor
  · intro names
    cases names with
    | absent blank => exact if_pos (Text.blank_iff.mp blank)
    | present filled => exact if_neg fun empty => filled (Text.blank_iff.mpr empty)
  · intro read
    split at read
    · rename_i empty
      cases read
      exact .absent (Text.blank_iff.mpr empty)
    · rename_i filled
      cases read
      exact .present fun blank => filled (Text.blank_iff.mp blank)

theorem mem_concrete_iff : c ∈ Category.concrete ↔ c.isMeta = false := by cases c <;> decide

theorem read_ok_iff : Category.read text = .ok c ↔ c ∈ Category.concrete ∧ text = c.name := by
  rw [mem_concrete_iff]
  constructor
  · intro read
    refine ⟨concrete_of_read read, ?_⟩
    unfold Category.read at read
    split at read
    · cases read
    · rename_i d found
      split at read
      · cases read
      · cases read
        have named := List.find?_some found
        exact (of_decide_eq_true named).symm
  · rintro ⟨concrete, rfl⟩
    rw [Category.read, Category.ofName?_name]
    simp [concrete]

structure Check.MadeBy (fields : List String) (check : Check) (x : Except Malformed α) : Prop where
  passes {a : α} (read : x = .ok a) : check.Passes fields
  blames {why : Malformed} (refused : x = .error why) : ¬ check.Passes fields ∧ check.Blames fields why

structure Judged (fields : List String) (checks : List Check) (x : Except Malformed α) : Prop where
  passes {a : α} (read : x = .ok a) : ∀ check ∈ checks, check.Passes fields
  fault {why : Malformed} (refused : x = .error why) : FirstFault fields checks why

theorem Judged.cons {x : Except Malformed α} (passes : check.Passes fields) (later : Judged fields checks x) :
    Judged fields (check :: checks) x where
  passes read := List.forall_mem_cons.mpr ⟨passes, later.passes read⟩
  fault refused := by
    obtain ⟨before, failing, after, rfl, passed, fails, blames⟩ := later.fault refused
    exact ⟨check :: before, failing, after, rfl, List.forall_mem_cons.mpr ⟨passes, passed⟩, fails, blames⟩

theorem Judged.bind {x : Except Malformed α} {f : α → Except Malformed β} (made : check.MadeBy fields x)
    (rest : ∀ a, x = .ok a → Judged fields checks (f a)) : Judged fields (check :: checks) (x >>= f) := by
  cases x with
  | ok a => exact (rest a rfl).cons (made.passes rfl)
  | error why =>
    constructor
    · intro b read
      cases read
    · intro why refused
      cases refused
      obtain ⟨fails, blames⟩ := made.blames rfl
      exact ⟨[], check, checks, rfl, List.forall_mem_nil _, fails, blames⟩

theorem judged_ok (a : α) : Judged fields [] (.ok a) where
  passes _ := List.forall_mem_nil _
  fault refused := by cases refused

theorem number_makes (column : NumberColumn) :
    (Check.number column).MadeBy fields (number column (cell fields column.name)) where
  passes read := ⟨_, number_ok_iff.mp read⟩
  blames refused := ⟨(refuses_of_number refused).not_holds, .number (refuses_of_number refused)⟩

theorem optional_makes (column : NumberColumn) :
    (Check.optional column).MadeBy fields (number? column (cell fields column.name)) where
  passes read := ⟨_, optional_ok_iff.mp read⟩
  blames refused := by
    obtain ⟨filled, refuses⟩ := refuses_of_optional refused
    refine ⟨?_, .optional refuses⟩
    rintro ⟨_, absent | ⟨denotes, holds⟩⟩
    · exact filled absent
    · exact refuses.not_holds ⟨_, denotes, holds⟩

def categoryOf (raw : String) : Except Malformed Category :=
  match Category.read (Text.strip raw) with
  | .ok c => .ok c
  | .error _ => .error (.category raw)

theorem categoryOf_ok_iff : categoryOf raw = .ok c ↔ c ∈ Category.concrete ∧ Text.strip raw = c.name := by
  rw [← read_ok_iff, categoryOf]
  constructor
  · intro known
    split at known
    · rename_i read
      cases known
      exact read
    · cases known
  · intro read
    rw [read]

theorem category_makes : Check.category.MadeBy fields (categoryOf (cell fields "category")) where
  passes known := ⟨_, categoryOf_ok_iff.mp known⟩
  blames refused := by
    constructor
    · rintro ⟨c, named⟩
      rw [categoryOf_ok_iff.mpr named] at refused
      cases refused
    · unfold categoryOf at refused
      split at refused
      · cases refused
      · cases refused
        exact .category

theorem ofFields_short (short : fields.length ≠ 13) : ofFields fields line = .error (.fields fields.length) := by
  unfold ofFields
  split
  · exact absurd rfl short
  · rfl

theorem ofFields_steps (line : Int) (full : fields.length = 13) : ofFields fields line = do
    let category ← categoryOf (cell fields "category")
    let seed ← number seedColumn (cell fields "seed")
    let depth ← number depthColumn (cell fields "depth")
    let quantity ← number quantityColumn (cell fields "quantity")
    let enchantment ← number? enchantmentColumn (cell fields "enchantment")
    let vault ← number? vaultColumn (cell fields "vault_number")
    let opensVault ← number? opensVaultColumn (cell fields "opens_vault_number")
    return {
      version := Text.strip (cell fields "dungeon_version"), seed, depth, quantity, category
      kind := Text.strip (cell fields "kind"), enchantment, runic := Text.strip (cell fields "runic"), vault, opensVault
      carriedBy := text? (cell fields "carried_by_monster_name")
      allyStatus := Text.strip (cell fields "ally_status_name"), mutation := Text.strip (cell fields "mutation_name")
      line := some line } := by
  match fields, full with
  | [version, seed, depth, quantity, category, kind, enchantment, runic, vault, opensVault, carriedBy, allyStatus,
      mutation], _ =>
    have named : columns.map (cell [version, seed, depth, quantity, category, kind, enchantment, runic, vault, opensVault,
      carriedBy, allyStatus, mutation]) = [version, seed, depth, quantity, category, kind, enchantment, runic, vault,
      opensVault, carriedBy, allyStatus, mutation] := rfl
    simp only [columns, List.map_cons, List.map_nil, List.cons.injEq] at named
    simp only [named, ofFields, categoryOf]
    cases Category.read (Text.strip category) with
    | ok c => dsimp only
    | error e => dsimp only

-- The reading makes the checks in their order and nothing else can stop it.
theorem ofFields_judged (fields : List String) (line : Int) : Judged fields Check.order (ofFields fields line) := by
  by_cases full : fields.length = 13
  · rw [ofFields_steps line full]
    refine Judged.cons full ?_
    refine Judged.bind category_makes fun category _ => ?_
    refine Judged.bind (number_makes seedColumn) fun seed _ => ?_
    refine Judged.bind (number_makes depthColumn) fun depth _ => ?_
    refine Judged.bind (number_makes quantityColumn) fun quantity _ => ?_
    refine Judged.bind (optional_makes enchantmentColumn) fun enchantment _ => ?_
    refine Judged.bind (optional_makes vaultColumn) fun vault _ => ?_
    refine Judged.bind (optional_makes opensVaultColumn) fun opensVault _ => ?_
    exact judged_ok _
  · rw [ofFields_short full]
    constructor
    · intro r read
      cases read
    · intro why refused
      cases refused
      exact ⟨[], .count, _, rfl, List.forall_mem_nil _, full, .count⟩

theorem ofFields_ok_iff : ofFields fields line = .ok r ↔ Reads fields line r := by
  constructor
  · intro read
    by_cases full : fields.length = 13
    · rw [ofFields_steps line full] at read
      obtain ⟨category, categoryRead, read⟩ := exists_of_bind read
      obtain ⟨seed, seedRead, read⟩ := exists_of_bind read
      obtain ⟨depth, depthRead, read⟩ := exists_of_bind read
      obtain ⟨quantity, quantityRead, read⟩ := exists_of_bind read
      obtain ⟨enchantment, enchantmentRead, read⟩ := exists_of_bind read
      obtain ⟨vault, vaultRead, read⟩ := exists_of_bind read
      obtain ⟨opensVault, opensVaultRead, read⟩ := exists_of_bind read
      have carriedBy : Names (cell fields "carried_by_monster_name") (text? (cell fields "carried_by_monster_name")) :=
        names_iff.mpr rfl
      -- Matched with the row as it stands, the text would be computed.
      generalize text? (cell fields "carried_by_monster_name") = carrier at carriedBy read
      cases read
      exact
        { count := full
          version := rfl
          seed := number_ok_iff.mp seedRead
          depth := number_ok_iff.mp depthRead
          quantity := number_ok_iff.mp quantityRead
          category := categoryOf_ok_iff.mp categoryRead
          kind := rfl
          enchantment := optional_ok_iff.mp enchantmentRead
          runic := rfl
          vault := optional_ok_iff.mp vaultRead
          opensVault := optional_ok_iff.mp opensVaultRead
          carriedBy
          allyStatus := rfl
          mutation := rfl
          line := rfl }
    · rw [ofFields_short full] at read
      cases read
  · intro reads
    rw [ofFields_steps line reads.count, categoryOf_ok_iff.mpr reads.category, number_ok_iff.mpr reads.seed,
      number_ok_iff.mpr reads.depth, number_ok_iff.mpr reads.quantity, optional_ok_iff.mpr reads.enchantment,
      optional_ok_iff.mpr reads.vault, optional_ok_iff.mpr reads.opensVault, ← reads.version, ← reads.kind, ← reads.runic,
      names_iff.mp reads.carriedBy, ← reads.allyStatus, ← reads.mutation, ← reads.line]
    rfl

theorem Reads.writable (reads : Reads fields line r) : r.Writable where
  version := by rw [reads.version, Text.strip_strip]
  seed := reads.seed.2
  depth := reads.depth.2
  quantity := reads.quantity.2
  category := mem_concrete_iff.mp reads.category.1
  kind := by rw [reads.kind, Text.strip_strip]
  enchantment := reads.enchantment.holds
  runic := by rw [reads.runic, Text.strip_strip]
  vault := reads.vault.holds
  opensVault := reads.opensVault.holds
  carriedBy := reads.carriedBy.own
  allyStatus := by rw [reads.allyStatus, Text.strip_strip]
  mutation := by rw [reads.mutation, Text.strip_strip]

-- Whatever a catalog says, a row read from it is one that it can hold, on its line.
theorem row_of_ofFields (read : ofFields fields line = .ok r) : r.Writable ∧ r.line = some line := by
  have reads := ofFields_ok_iff.mp read
  exact ⟨reads.writable, reads.line⟩

theorem cell_repadded (same : List.Forall₂ Repadded fields others) (name : String) :
    Repadded (cell fields name) (cell others name) := by
  unfold cell
  generalize columns = names
  induction same generalizing names with
  | nil => exact .refl _
  | cons first rest ih =>
    cases names with
    | nil => exact .refl _
    | cons other names =>
      rw [List.zip_cons_cons, List.zip_cons_cons, List.lookup_cons, List.lookup_cons]
      split
      · exact first
      · exact ih names

theorem Reads.repadded (reads : Reads fields line r) (same : List.Forall₂ Repadded fields others) :
    Reads others line r := by
  have stripped (name : String) : Text.strip (cell fields name) = Text.strip (cell others name) :=
    Text.repadded_iff.mp (cell_repadded same name)
  exact
    { count := same.length_eq ▸ reads.count
      version := stripped _ ▸ reads.version
      seed := ⟨reads.seed.1.repadded (cell_repadded same _), reads.seed.2⟩
      depth := ⟨reads.depth.1.repadded (cell_repadded same _), reads.depth.2⟩
      quantity := ⟨reads.quantity.1.repadded (cell_repadded same _), reads.quantity.2⟩
      category := ⟨reads.category.1, stripped _ ▸ reads.category.2⟩
      kind := stripped _ ▸ reads.kind
      enchantment := reads.enchantment.repadded (cell_repadded same _)
      runic := stripped _ ▸ reads.runic
      vault := reads.vault.repadded (cell_repadded same _)
      opensVault := reads.opensVault.repadded (cell_repadded same _)
      carriedBy := reads.carriedBy.repadded (cell_repadded same _)
      allyStatus := stripped _ ▸ reads.allyStatus
      mutation := stripped _ ▸ reads.mutation
      line := reads.line }

def read (fields : List String) (line : Int) : Except FormatError Row :=
  (ofFields fields line).mapError fun reason => { reason, place := { line := some line } }

theorem read_ok_iff_reads : read fields line = .ok r ↔ Reads fields line r := by
  rw [← ofFields_ok_iff, read]
  cases ofFields fields line <;> simp [Except.mapError]

theorem read_error {e : FormatError} (refused : read fields line = .error e) :
    e.place = { line := some line } ∧ FirstFault fields Check.order e.reason := by
  cases found : ofFields fields line with
  | ok r =>
    rw [read, found] at refused
    cases refused
  | error reason =>
    rw [read, found] at refused
    cases refused
    exact ⟨rfl, (ofFields_judged fields line).fault found⟩

theorem rowsOf_read (after : Option Fault) (fields : List String) (n : Nat) (rest : List Record.Numbered)
    (filled : fields ≠ []) : rowsOf after (⟨n, fields⟩ :: rest) =
      match read fields n with
      | .ok row => { rowsOf after rest with items := row :: (rowsOf after rest).items }
      | .error e => { items := [], fault := some (.format e) } := by
  rw [rowsOf, if_neg (by simpa using filled), read]
  cases ofFields fields n <;> rfl

-- A record is a row just if it passes every check, and the first one that it does
-- not pass is told, on its line. Padding makes no difference to the row. This is how
-- a catalog is read, record by record.
theorem read_by_checks (fields : List String) (line : Int) :
    ((∃ r, read fields line = .ok r) ↔ ∀ check ∈ Check.order, check.Passes fields) ∧
    (∀ r, read fields line = .ok r ↔ Reads fields line r) ∧
    (∀ e, read fields line = .error e → e.place = { line := some line } ∧ FirstFault fields Check.order e.reason) ∧
    (∀ others, List.Forall₂ Repadded fields others → ∀ r, read others line = .ok r ↔ read fields line = .ok r) ∧
    (∀ r, read fields line = .ok r → r.Writable) ∧
    ∀ n : Nat, line = n → fields ≠ [] → ∀ after rest, rowsOf after (⟨n, fields⟩ :: rest) =
      match read fields line with
      | .ok row => { rowsOf after rest with items := row :: (rowsOf after rest).items }
      | .error e => { items := [], fault := some (.format e) } := by
  refine ⟨⟨?_, ?_⟩, fun r => read_ok_iff_reads, fun e => read_error, ?_,
    fun r found => (read_ok_iff_reads.mp found).writable, ?_⟩
  · rintro ⟨r, found⟩
    exact (ofFields_judged fields line).passes (ofFields_ok_iff.mpr (read_ok_iff_reads.mp found))
  · intro passes
    cases found : read fields line with
    | ok r => exact ⟨r, rfl⟩
    | error e =>
      obtain ⟨-, before, check, after, split, -, fails, -⟩ := read_error found
      exact absurd (passes check (by simp [split])) fails
  · intro others same r
    rw [read_ok_iff_reads, read_ok_iff_reads]
    exact ⟨fun reads => reads.repadded (same.flip.imp fun _ _ => Repadded.symm), fun reads => reads.repadded same⟩
  · rintro n rfl filled after rest
    exact rowsOf_read after fields n rest filled

end Row

end SeedSearch.Catalog
