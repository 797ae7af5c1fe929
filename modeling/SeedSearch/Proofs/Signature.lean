import Mathlib.Data.List.Infix
import SeedSearch.Proofs.Misreading

namespace SeedSearch.Catalog
open Record (Numbered)

def leading : List String := ["dungeon_version", "seed", "depth"]

def names (header : List String) : List String := header.map Text.strip

def Leads (header : List String) : Prop := leading <+: names header

instance (header : List String) : Decidable (Leads header) := inferInstanceAs (Decidable (_ <+: _))

-- The signature stands somewhere in the names, whichever of them it begins in and
-- wherever they are parted.
structure Signed (header : List String) : Prop where
  full : header.length = columns.length
  shown : ∃ before after, String.join (names header) = before ++ signature ++ after

-- The columns are those of a catalog, the first of them in no other place.
structure Ordinary (header : List String) : Prop where
  known : ∀ name ∈ names header, name ∈ columns
  first : "dungeon_version" ∉ (names header).tail

def Fits (a b : List Char) : Prop := a <+: b ∨ b <+: a

instance (a b : List Char) : Decidable (Fits a b) := inferInstanceAs (Decidable (_ ∨ _))

variable {header words : List String} {before tail part rest : List Char} {lines : Feed (List Char)}
  {records : List Numbered} {first : Numbered} {stop : Record.End} {r : Row}

theorem fits_of_append {a b c d : List Char} (same : a ++ b = c ++ d) : Fits a c :=
  List.prefix_or_prefix_of_prefix (same ▸ List.prefix_append a b) (List.prefix_append c d)

theorem signed_iff_occurs : (∃ before after, String.join (names header) = before ++ signature ++ after) ↔
    Text.isFragment signature (String.join (names header)) = true := by
  rw [Text.isFragment, Text.occurs_iff]
  constructor
  · rintro ⟨before, after, whole⟩
    exact ⟨before.toList, after.toList, by rw [whole, String.toList_append, String.toList_append]⟩
  · rintro ⟨before, after, whole⟩
    refine ⟨String.ofList before, String.ofList after, String.toList_inj.mp ?_⟩
    simpa using whole

theorem checkHeader_ok_iff : checkHeader header = .ok () ↔ Signed header := by
  unfold checkHeader
  split
  · rename_i short
    constructor
    · intro stands
      cases stands
    · intro signed
      exact absurd signed.full short
  · rename_i full
    split
    · rename_i shown
      exact ⟨fun _ => ⟨not_not.mp full, signed_iff_occurs.mpr shown⟩, fun _ => rfl⟩
    · rename_i absent
      constructor
      · intro stands
        cases stands
      · intro signed
        exact absurd (signed_iff_occurs.mp signed.shown) absent

theorem exists_cut (filled : tail ≠ []) (whole : words.flatMap String.toList = before ++ tail) :
    ∃ front word back part rest, words = front ++ word :: back ∧ word.toList = part ++ rest ∧ rest ≠ [] ∧
      tail = rest ++ back.flatMap String.toList := by
  induction words generalizing before with
  | nil =>
    obtain ⟨-, none⟩ := List.append_eq_nil_iff.mp whole.symm
    exact absurd none filled
  | cons word words ih =>
    have later (rest : List Char) (behind : words.flatMap String.toList = rest ++ tail) :
        ∃ front other back part rest, word :: words = front ++ other :: back ∧ other.toList = part ++ rest ∧ rest ≠ [] ∧
          tail = rest ++ back.flatMap String.toList := by
      obtain ⟨front, other, back, part, rest, rfl, spelled, solid, same⟩ := ih behind
      exact ⟨word :: front, other, back, part, rest, rfl, spelled, solid, same⟩
    rw [List.flatMap_cons] at whole
    rcases List.append_eq_append_iff.mp whole with ⟨rest, -, behind⟩ | ⟨rest, spelled, same⟩
    · exact later rest behind
    · by_cases none : rest = []
      · rw [none, List.nil_append] at same
        exact later [] same.symm
      · exact ⟨[], word, words, before, rest, rfl, spelled, none, same⟩

theorem exists_word (filled : part ≠ []) (whole : words.flatMap String.toList = part ++ rest) :
    ∃ word later, words = word :: later ∧ Fits word.toList part ∧
      word.toList ++ later.flatMap String.toList = part ++ rest := by
  cases words with
  | nil =>
    obtain ⟨none, -⟩ := List.append_eq_nil_iff.mp whole.symm
    exact absurd none filled
  | cons word later =>
    rw [List.flatMap_cons] at whole
    exact ⟨word, later, rfl, fits_of_append whole, whole⟩

-- The signature can only begin with the first column or in the last letter of one
-- that ends in "d", behind which no column goes on with it.
theorem begins_signature : ∀ word ∈ columns, ∀ rest ∈ word.toList.tails, rest ≠ [] → Fits rest signature.toList →
    rest = ['d'] ∨ word = "dungeon_version" ∧ rest = word.toList := by
  decide +kernel

theorem not_fits_rest : ∀ word ∈ columns, ¬ Fits word.toList "ungeon_versionseeddepth".toList := by decide +kernel

theorem fits_seed : ∀ word ∈ columns, Fits word.toList "seeddepth".toList → word = "seed" := by decide +kernel

theorem fits_depth : ∀ word ∈ columns, Fits word.toList "depth".toList → word = "depth" := by decide +kernel

theorem leading_of_occurs (known : ∀ word ∈ words, word ∈ columns)
    (whole : words.flatMap String.toList = before ++ (signature.toList ++ rest)) : leading <:+: words := by
  obtain ⟨front, word, back, part, begun, rfl, spelled, solid, shown⟩ := exists_cut (by simp [signature]) whole
  have here : word ∈ columns := known word (by simp)
  have behind : ∀ other ∈ back, other ∈ columns := fun other member => known other (by simp [member])
  have fits : Fits begun signature.toList := fits_of_append shown.symm
  rcases begins_signature word here begun ((List.mem_tails _ _).mpr ⟨part, spelled.symm⟩) solid fits with rfl | ⟨rfl, rfl⟩
  · have next : back.flatMap String.toList = "ungeon_versionseeddepth".toList ++ rest := by
      simpa [signature] using shown.symm
    obtain ⟨other, later, rfl, fits, -⟩ := exists_word (by simp) next
    exact absurd fits (not_fits_rest other (behind other (by simp)))
  · have next : back.flatMap String.toList = "seeddepth".toList ++ rest := by
      simpa [signature] using shown.symm
    obtain ⟨second, more, rfl, fits, next⟩ := exists_word (by simp) next
    obtain rfl := fits_seed second (behind second (by simp)) fits
    have last : more.flatMap String.toList = "depth".toList ++ rest := by
      simpa using next
    obtain ⟨third, others, rfl, fits, -⟩ := exists_word (by simp) last
    obtain rfl := fits_depth third (behind third (by simp)) fits
    exact ⟨front, others, by simp [leading]⟩

theorem signed_of_leading (full : header.length = columns.length) (shown : leading <:+: names header) : Signed header := by
  obtain ⟨before, after, whole⟩ := shown
  have spelled : signature = String.join leading := by decide +kernel
  refine ⟨full, String.join before, String.join after, ?_⟩
  rw [← whole, spelled, String.join_append, String.join_append]

-- Among the names of columns the signature is only shown by the columns that it
-- is made of, one behind the other, but anywhere.
theorem signed_iff_leading (known : ∀ name ∈ names header, name ∈ columns) :
    Signed header ↔ header.length = columns.length ∧ leading <:+: names header := by
  constructor
  · rintro ⟨full, before, after, whole⟩
    have spelled : (names header).flatMap String.toList = before.toList ++ (signature.toList ++ after.toList) := by
      rw [← String.toList_join, whole, String.toList_append, String.toList_append, List.append_assoc]
    exact ⟨full, leading_of_occurs known spelled⟩
  · rintro ⟨full, shown⟩
    exact signed_of_leading full shown

theorem Signed.leads (signed : Signed header) (ordinary : Ordinary header) : Leads header := by
  obtain ⟨-, before, after, whole⟩ := (signed_iff_leading ordinary.known).mp signed
  cases before with
  | nil => exact ⟨after, whole⟩
  | cons name before =>
    have later : "dungeon_version" ∈ (names header).tail := by
      rw [← whole]
      simp [leading]
    exact absurd later ordinary.first

def headerReason (header : List String) : Malformed :=
  if header.length ≠ columns.length then .headerFields header.length else .headerNames

theorem checkHeader_error (unsigned : ¬ Signed header) : checkHeader header = .error (headerReason header) := by
  have refused : checkHeader header ≠ .ok () := fun stands => unsigned (checkHeader_ok_iff.mp stands)
  unfold checkHeader at refused ⊢
  unfold headerReason
  split at refused
  · rename_i short
    rw [if_pos short, if_pos short]
  · rename_i full
    rw [if_neg full, if_neg full]
    split at refused
    · exact absurd rfl refused
    · rename_i absent
      rw [if_neg absent]

section Reading

variable (found : Record.read lines.fault.isSome lines.items = (first :: records, stop))
include found

theorem readRows_signed (signed : Signed first.fields) : readRows lines = rowsOf (ending lines.fault stop) records := by
  rw [readRows, found]
  simp only [checkHeader_ok_iff.mpr signed]

theorem readRows_unsigned (unsigned : ¬ Signed first.fields) : readRows lines =
    { items := [], fault := some (.format { reason := headerReason first.fields, place := { line := some 1 } }) } := by
  rw [readRows, found]
  simp only [checkHeader_error unsigned]
  rfl

end Reading

theorem header_of_mem (member : r ∈ (readRows lines).items) : ∃ first records stop,
    Record.read lines.fault.isSome lines.items = (first :: records, stop) ∧ Signed first.fields := by
  have read := member
  unfold readRows at read
  split at read
  · cases read
  · cases read
  · cases read
  · rename_i first records stop found
    refine ⟨first, records, stop, found, ?_⟩
    apply Classical.byContradiction
    intro unsigned
    rw [readRows_unsigned found unsigned] at member
    cases member

-- Rows are only read under a header that shows the signature, and then without
-- any more regard to the header; its columns lead an ordinary one.
theorem rows_under_signature (lines : Feed (List Char)) :
    (∀ r ∈ (readRows lines).items, ∃ first records stop,
      Record.read lines.fault.isSome lines.items = (first :: records, stop) ∧ Signed first.fields ∧
        (Ordinary first.fields → Leads first.fields)) ∧
    (∀ first records stop, Record.read lines.fault.isSome lines.items = (first :: records, stop) →
      (Signed first.fields → readRows lines = rowsOf (ending lines.fault stop) records) ∧
      (¬ Signed first.fields → readRows lines = { items := [], fault := some (.format
        { reason := headerReason first.fields, place := { line := some 1 } }) })) ∧
    (∀ header : List String, header.length = columns.length → leading <:+: names header → Signed header) ∧
    ∀ header : List String, (∀ name ∈ names header, name ∈ columns) →
      (Signed header ↔ header.length = columns.length ∧ leading <:+: names header) := by
  refine ⟨?_, ?_, ?_, ?_⟩
  · intro r member
    obtain ⟨first, records, stop, found, signed⟩ := header_of_mem member
    exact ⟨first, records, stop, found, signed, signed.leads⟩
  · intro first records stop found
    exact ⟨readRows_signed found, readRows_unsigned found⟩
  · intro header full shown
    exact signed_of_leading full shown
  · intro header known
    exact signed_iff_leading known

-- All columns but the last one, behind a name that no column has.
def shiftedColumns : List String := "catalog" :: columns.dropLast

def goldFields : List String := ["CE 1.9", "1", "2", "3", "gold", "gold pieces", "", "", "", "", "", "", ""]

def goldRow : Row :=
  { version := "CE 1.9", seed := 1, depth := 2, quantity := 3, category := .gold, kind := "gold pieces", line := some 2 }

def shiftedCatalog : List Char :=
  [','].intercalate (shiftedColumns.map String.toList) ++ '\n' :: [','].intercalate (goldFields.map String.toList)

-- The first column of the rows is read as the version all the same.
theorem readRows_shifted : ¬ Leads shiftedColumns ∧
    Record.read false (linesOf true shiftedCatalog none).items = ([⟨1, shiftedColumns⟩, ⟨2, goldFields⟩], .eof) ∧
    readRows (linesOf true shiftedCatalog none) = { items := [goldRow] } := by
  let lines := linesOf true shiftedCatalog none
  have read : Record.read lines.fault.isSome lines.items = ([⟨1, shiftedColumns⟩, ⟨2, goldFields⟩], .eof) := by
    decide +kernel
  have signed : Signed shiftedColumns := signed_of_leading rfl (by decide +kernel)
  refine ⟨by decide +kernel, read, ?_⟩
  rw [readRows_signed read signed]
  decide +kernel

end SeedSearch.Catalog
