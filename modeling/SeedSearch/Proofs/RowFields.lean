import Mathlib.Data.List.DropRight
import SeedSearch.Catalog.Row
import SeedSearch.Proofs.Spelling

namespace SeedSearch

theorem exists_of_bind {ε α β : Type} {x : Except ε α} {f : α → Except ε β} {b : β} (done : x >>= f = .ok b) :
    ∃ a, x = .ok a ∧ f a = .ok b := by
  cases x with
  | error e => cases done
  | ok a => exact ⟨a, rfl, done⟩

namespace Text

variable {c : Char} {n : Nat} {text : List Char} {drops : Char → Bool}

theorem dropWhile_stays (first : ∀ c ∈ text.head?, drops c = false) : text.dropWhile drops = text := by
  cases text with
  | nil => rfl
  | cons c text => exact List.dropWhile_cons_of_neg (by simp [first c rfl])

theorem dropWhile_first (drops : Char → Bool) (text : List Char) : ∀ c ∈ (text.dropWhile drops).head?, drops c = false := by
  intro c first
  have stops := List.head?_dropWhile_not drops text
  rw [Option.mem_def.mp first] at stops
  simpa using stops

-- What has been trimmed is a stretch of the text, with nothing more to trim at
-- either end.
theorem trimBy_ends (drops : Char → Bool) (text : List Char) :
    (∀ c ∈ (trimBy drops text).head?, drops c = false) ∧ ∀ c ∈ (trimBy drops text).getLast?, drops c = false := by
  constructor
  · intro c first
    obtain ⟨rest, whole⟩ := List.rdropWhile_prefix drops (text.dropWhile drops)
    have start : trimBy drops text ++ rest = text.dropWhile drops := whole
    apply dropWhile_first drops text c
    rw [← start, List.head?_append, Option.mem_def.mp first]
    rfl
  · intro c last
    rw [trimBy, List.getLast?_reverse] at last
    exact dropWhile_first drops _ c last

theorem trimBy_stays (first : ∀ c ∈ text.head?, drops c = false) (last : ∀ c ∈ text.getLast?, drops c = false) :
    trimBy drops text = text := by
  have reversed : ∀ c ∈ text.reverse.head?, drops c = false := by rwa [List.head?_reverse]
  rw [trimBy, dropWhile_stays first, dropWhile_stays reversed, List.reverse_reverse]

theorem trimBy_clean (clean : ∀ c ∈ text, drops c = false) : trimBy drops text = text :=
  trimBy_stays (fun c first => clean c (List.mem_of_head? first)) fun c last => clean c (List.mem_of_getLast? last)

theorem trimBy_trimBy (drops : Char → Bool) (text : List Char) :
    trimBy drops (trimBy drops text) = trimBy drops text :=
  trimBy_stays (trimBy_ends drops text).1 (trimBy_ends drops text).2

theorem strip_strip (raw : String) : strip (strip raw) = strip raw := by
  rw [strip, strip, String.toList_ofList, trimBy_trimBy]

theorem digit_bounds (plain : isPlainDigit c = true) : 48 ≤ c.toNat ∧ c.toNat ≤ 57 := by
  simpa [isPlainDigit, Char.le_def, UInt32.le_iff_toNat_le] using plain

theorem isBlank_digit (plain : isPlainDigit c = true) : isBlank c = false := by
  have bounds := digit_bounds plain
  simp [isBlank]
  omega

theorem digitValue_plain (plain : isPlainDigit c = true) : digitValue? c = some (c.toNat - 48) := by
  have bounds := digit_bounds plain
  have first : zeros.find? (fun z => z ≤ c.toNat && c.toNat < z+10) = some 48 := by
    apply List.find?_cons_of_pos
    simp
    omega
  rw [digitValue?, first]
  rfl

namespace Numeral

theorem digits_plain (plain : ∀ c ∈ text, isPlainDigit c = true) (filled : text ≠ []) :
    digits? text = some (text.map fun c => c.toNat - 48) := by
  fun_induction digits? text with
  | case1 => exact absurd rfl filled
  | case2 c => simp [digitValue_plain (plain c (by simp))]
  | case3 c rest ih =>
    have foreign := plain '_' (by simp)
    cases foreign
  | case4 c rest more other ih =>
    have tail := ih (fun d member => plain d (List.mem_cons_of_mem c member)) more
    rw [digitValue_plain (plain c List.mem_cons_self), tail]
    rfl

theorem magnitude_toDigits (small : n ≤ 0xffffffff) : magnitude? (Nat.toDigits 10 n) = some n := by
  have short : (Nat.toDigits 10 n).length ≤ 10 :=
    (Nat.length_toDigits_le_iff (by decide) (by decide)).mpr (Nat.lt_of_le_of_lt small (by decide))
  have digits := digits_plain (fun c member => isPlainDigit_of_mem member) (Nat.toDigits_ne_nil (b := 10) (n := n))
  rw [magnitude?, digits]
  simp only [Option.bind_eq_bind, Option.bind_some, List.length_map, positional_toDigits]
  rw [if_neg]
  exact Nat.not_lt.mpr (Nat.le_trans short (by decide))

end Numeral

theorem toList_ofNat (n : Nat) : (toString (Int.ofNat n)).toList = Nat.toDigits 10 n := Nat.toList_repr

theorem toList_negSucc (n : Nat) : (toString (Int.negSucc n)).toList = '-' :: Nat.toDigits 10 (n+1) := by
  have spelled : toString (Int.negSucc n) = "-" ++ Nat.repr (n+1) := rfl
  rw [spelled, String.toList_append, Nat.toList_repr]
  rfl

theorem solid_toString (n : Int) (member : c ∈ (toString n).toList) : isBlank c = false := by
  cases n with
  | ofNat n =>
    rw [toList_ofNat] at member
    exact isBlank_digit (isPlainDigit_of_mem member)
  | negSucc n =>
    rw [toList_negSucc] at member
    rcases List.mem_cons.mp member with sign | digit
    · rw [sign]
      decide
    · exact isBlank_digit (isPlainDigit_of_mem digit)

theorem strip_toString (n : Int) : strip (toString n) = toString n := by
  rw [strip, trimBy_clean fun c member => solid_toString n member, String.ofList_toList]

theorem toString_ne_empty (n : Int) : toString n ≠ "" := by
  intro empty
  have chars := congrArg String.toList empty
  cases n with
  | ofNat n =>
    rw [toList_ofNat] at chars
    exact Nat.toDigits_ne_nil chars
  | negSucc n =>
    rw [toList_negSucc] at chars
    cases chars

theorem Numeral.integer_toString {n : Int} (small : n.natAbs ≤ 0xffffffff) : integer? (toString n) = some n := by
  have whole : trimBy pads (toString n).toList = (toString n).toList :=
    trimBy_clean fun c member => by simp [pads, solid_toString n member]
  rw [integer?, whole]
  cases n with
  | ofNat n =>
    have unsigned : ∀ c ∈ Nat.toDigits 10 n, c ≠ '-' ∧ c ≠ '+' := by
      intro c member
      have plain := isPlainDigit_of_mem member
      constructor <;> intro sign <;> simp [sign, isPlainDigit] at plain
    rw [toList_ofNat]
    split
    · rename_i spelled
      exact absurd rfl (unsigned '-' (by simp [spelled])).1
    · rename_i spelled
      exact absurd rfl (unsigned '+' (by simp [spelled])).2
    · have magnitude : magnitude? (Nat.toDigits 10 n) = some n := magnitude_toDigits small
      rw [magnitude]
      rfl
  | negSucc n =>
    have magnitude : magnitude? (Nat.toDigits 10 (n+1)) = some (n+1) := magnitude_toDigits small
    rw [toList_negSucc]
    simp only [magnitude]
    rfl

end Text

namespace Catalog.Row

def optional (number : Option Int) : String := (number.map toString).getD ""

def fields (r : Row) : List String :=
  [r.version, toString r.seed, toString r.depth, toString r.quantity, r.category.name, r.kind, optional r.enchantment,
    r.runic, optional r.vault, optional r.opensVault, r.carriedBy.getD "", r.allyStatus, r.mutation]

structure Writable (r : Row) : Prop where
  version : Text.strip r.version = r.version
  seed : 0 ≤ r.seed ∧ r.seed ≤ 0xffffffff
  depth : 0 ≤ r.depth ∧ r.depth ≤ 0xff
  quantity : 0 ≤ r.quantity ∧ r.quantity ≤ 0xffffffff
  category : r.category.isMeta = false
  kind : Text.strip r.kind = r.kind
  enchantment : ∀ n ∈ r.enchantment, -128 ≤ n ∧ n ≤ 127
  runic : Text.strip r.runic = r.runic
  vault : ∀ n ∈ r.vault, 0 ≤ n ∧ n ≤ 0xff
  opensVault : ∀ n ∈ r.opensVault, 0 ≤ n ∧ n ≤ 0xff
  carriedBy : ∀ name ∈ r.carriedBy, Text.strip name = name ∧ name ≠ ""
  allyStatus : Text.strip r.allyStatus = r.allyStatus
  mutation : Text.strip r.mutation = r.mutation

theorem number_toString {column : NumberColumn} {n : Int} (narrow : -0xffffffff ≤ column.low ∧ column.high ≤ 0xffffffff)
    (within : column.low ≤ n ∧ n ≤ column.high) : number column (toString n) = .ok n := by
  have small : n.natAbs ≤ 0xffffffff := by omega
  rw [number, Text.strip_toString, Text.Numeral.integer_toString small]
  simp [within]

theorem number_optional {column : NumberColumn} {given : Option Int}
    (narrow : -0xffffffff ≤ column.low ∧ column.high ≤ 0xffffffff)
    (within : ∀ n ∈ given, column.low ≤ n ∧ n ≤ column.high) : number? column (optional given) = .ok given := by
  cases given with
  | none => rfl
  | some n =>
    have filled : Text.strip (optional (some n)) ≠ "" := by
      rw [optional, Option.map_some, Option.getD_some, Text.strip_toString]
      exact Text.toString_ne_empty n
    rw [number?, if_neg filled]
    exact congrArg (some <$> ·) (number_toString narrow (within n rfl))

theorem text_getD {given : Option String} (own : ∀ name ∈ given, Text.strip name = name ∧ name ≠ "") :
    text? (given.getD "") = given := by
  cases given with
  | none => rfl
  | some name =>
    obtain ⟨stripped, filled⟩ := own name rfl
    simp [text?, stripped, filled]

theorem strip_name (c : Category) : Text.strip c.name = c.name := by
  cases c <;> decide +kernel

theorem read_name {c : Category} (concrete : c.isMeta = false) : Category.read (Text.strip c.name) = .ok c := by
  rw [strip_name, Category.read, Category.ofName?_name]
  simp [concrete]

theorem ofFields_fields {r : Row} (writable : r.Writable) (line : Int) :
    ofFields r.fields line = .ok { r with line := some line } := by
  have seed : number seedColumn (toString r.seed) = .ok r.seed := number_toString (by decide) writable.seed
  have depth : number depthColumn (toString r.depth) = .ok r.depth := number_toString (by decide) writable.depth
  have quantity : number quantityColumn (toString r.quantity) = .ok r.quantity :=
    number_toString (by decide) writable.quantity
  have enchantment : number? enchantmentColumn (optional r.enchantment) = .ok r.enchantment :=
    number_optional (by decide) writable.enchantment
  have vault : number? vaultColumn (optional r.vault) = .ok r.vault := number_optional (by decide) writable.vault
  have opensVault : number? opensVaultColumn (optional r.opensVault) = .ok r.opensVault :=
    number_optional (by decide) writable.opensVault
  unfold ofFields fields
  simp only [read_name writable.category, seed, depth, quantity, enchantment, vault, opensVault, writable.version, writable.kind,
    writable.runic, text_getD writable.carriedBy, writable.allyStatus, writable.mutation]
  rfl

theorem concrete_of_read {text : String} {c : Category} (read : Category.read text = .ok c) : c.isMeta = false := by
  unfold Category.read at read
  split at read
  · cases read
  · split at read
    · cases read
    · cases read
      simp_all

end Catalog.Row

end SeedSearch
