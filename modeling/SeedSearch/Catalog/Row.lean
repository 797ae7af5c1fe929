import SeedSearch.Fault
import SeedSearch.Text.Blank

namespace SeedSearch.Catalog

def columns : List String :=
  ["dungeon_version", "seed", "depth", "quantity", "category", "kind", "enchantment", "runic",
   "vault_number", "opens_vault_number", "carried_by_monster_name", "ally_status_name",
   "mutation_name"]

structure Row where
  version : String
  seed : Int
  depth : Int
  quantity : Int
  category : Category
  kind : String
  enchantment : Option Int := none
  runic : String := ""
  vault : Option Int := none
  opensVault : Option Int := none
  carriedBy : Option String := none
  allyStatus : String := ""
  mutation : String := ""
  line : Option Int := none
  deriving DecidableEq, Repr

namespace Row

def inVault (r : Row) : Bool := r.vault.isSome

def seedColumn : NumberColumn := ⟨"seed", 0, 0xffffffff⟩
def depthColumn : NumberColumn := ⟨"depth", 0, 0xff⟩
def quantityColumn : NumberColumn := ⟨"quantity", 0, 0xffffffff⟩
def enchantmentColumn : NumberColumn := ⟨"enchantment", -128, 127⟩
def vaultColumn : NumberColumn := ⟨"vault_number", 0, 0xff⟩
def opensVaultColumn : NumberColumn := ⟨"opens_vault_number", 0, 0xff⟩

def number (column : NumberColumn) (raw : String) : Except Malformed Int :=
  match Text.Numeral.integer? (Text.strip raw) with
  | none => .error (.notInteger column raw)
  | some n => if column.low ≤ n && n ≤ column.high then .ok n else .error (.outOfRange column n)

def number? (column : NumberColumn) (raw : String) : Except Malformed (Option Int) :=
  if Text.strip raw = "" then .ok none else some <$> number column raw

def text? (raw : String) : Option String :=
  let text := Text.strip raw
  if text = "" then none else some text

-- Padding never counts; the first check that fails gives the reason.
def ofFields (fields : List String) (line : Int) : Except Malformed Row :=
  match fields with
  | [version, seed, depth, quantity, category, kind, enchantment, runic, vault, opensVault,
      carriedBy, allyStatus, mutation] => do
    let parsed ← match Category.read (Text.strip category) with
      | .ok c => .ok c
      | .error _ => .error (.category category)
    return {
      version := Text.strip version
      seed := ← number seedColumn seed
      depth := ← number depthColumn depth
      quantity := ← number quantityColumn quantity
      category := parsed
      kind := Text.strip kind
      enchantment := ← number? enchantmentColumn enchantment
      runic := Text.strip runic
      vault := ← number? vaultColumn vault
      opensVault := ← number? opensVaultColumn opensVault
      carriedBy := text? carriedBy
      allyStatus := Text.strip allyStatus
      mutation := Text.strip mutation
      line := some line }
  | _ => .error (.fields fields.length)

end Row

end SeedSearch.Catalog
