import SeedSearch.Proofs.RowFields
import SeedSearch.Proofs.WrittenRecord

namespace SeedSearch.Catalog

inductive LineEnd where
  | lf | cr | crlf
  deriving DecidableEq, Repr

def LineEnd.chars : LineEnd → List Char
  | lf => ['\n']
  | cr => ['\r']
  | crlf => ['\r', '\n']

-- The texts of a catalog up to the end of its last record, with the rows they
-- hold. A record is on the line that its end is on; line ends inside of fields
-- count, and a lone carriage return before a line feed makes one with it.
inductive Written : List Char → List Row → Prop where
  | header {chars : List Char} (form : RecordForm columns chars) : Written chars []
  | row {text record : List Char} {rows : List Row} {row : Row} (earlier : Written text rows) (ends : List LineEnd)
    (apart : ends ≠ []) (writable : row.Writable) (form : RecordForm row.fields record) :
    Written (text ++ ends.flatMap LineEnd.chars ++ record)
      (rows ++ [{ row with line := some (breaks (text ++ ends.flatMap LineEnd.chars ++ record) + 1 : Nat) }])

variable {records skipped : List Record.Numbered} {rows : List Row} {text : List Char} {fields : List String}

theorem rowsOf_append (after : Option Fault) (whole : (rowsOf none records).fault = none) (more : List Record.Numbered) :
    rowsOf after (records ++ more) =
      { rowsOf after more with items := (rowsOf none records).items ++ (rowsOf after more).items } := by
  induction records with
  | nil => rfl
  | cons r records ih =>
    rw [List.cons_append]
    by_cases blank : r.fields.isEmpty = true
    · rw [rowsOf, if_pos blank] at whole
      rw [rowsOf, rowsOf.eq_2 none, if_pos blank, if_pos blank, ih whole]
    · rw [rowsOf, if_neg blank] at whole
      rw [rowsOf, rowsOf.eq_2 none, if_neg blank, if_neg blank]
      cases read : Row.ofFields r.fields r.line with
      | error reason => simp [read] at whole
      | ok row =>
        rw [read] at whole
        simp only [ih whole, List.cons_append]

theorem rowsOf_blank (after : Option Fault) (blank : ∀ r ∈ skipped, r.fields = []) :
    rowsOf after skipped = { items := [], fault := after } := by
  induction skipped with
  | nil => rfl
  | cons r skipped ih =>
    rw [rowsOf, blank r List.mem_cons_self]
    exact ih fun s member => blank s (List.mem_cons_of_mem r member)

theorem checkHeader_columns : checkHeader columns = .ok () := by
  have signed : Text.isFragment signature (String.join (columns.map Text.strip)) = true := by decide +kernel
  rw [checkHeader, if_neg (by decide), if_pos signed]

def Holds (records : List Record.Numbered) (rows : List Row) : Prop :=
  ∃ line data, records = ⟨line, columns⟩ :: data ∧ rowsOf none data = { items := rows }

theorem Holds.blanks (holds : Holds records rows) (blank : ∀ r ∈ skipped, r.fields = []) :
    Holds (records ++ skipped) rows := by
  obtain ⟨line, data, rfl, whole⟩ := holds
  refine ⟨line, data ++ skipped, rfl, ?_⟩
  rw [rowsOf_append none (by rw [whole]), rowsOf_blank none blank, whole, List.append_nil]

theorem Holds.snoc {row : Row} (holds : Holds records rows) (writable : row.Writable) (n : Nat) :
    Holds (records ++ [⟨n, row.fields⟩]) (rows ++ [{ row with line := some (n : Int) }]) := by
  obtain ⟨line, data, rfl, whole⟩ := holds
  refine ⟨line, data ++ [⟨n, row.fields⟩], rfl, ?_⟩
  have last : rowsOf none [⟨n, row.fields⟩] = { items := [{ row with line := some (n : Int) }] } := by
    rw [rowsOf, if_neg (by simp [Row.fields]), Row.ofFields_fields writable n]
    rfl
  rw [rowsOf_append none (by rw [whole]), last, whole]

theorem Holds.readRows (holds : Holds records rows) (read : Record.readText {} false 0 text = (records, .eof)) :
    readRows (linesOf true text none) = { items := rows } := by
  obtain ⟨line, data, rfl, whole⟩ := holds
  have lines : (linesOf true text none).fault = none := by rw [linesOf_behind]
  rw [Catalog.readRows, lines, Option.isSome_none, Record.read_text, read]
  simp only [checkHeader_columns, ending, whole]

structure Gap (chars : List Char) : Prop where
  blank : ∀ c ∈ chars, Record.Reading.isBreak c = true
  filled : chars ≠ []

theorem gap_ends {ends : List LineEnd} (some : ends ≠ []) : Gap (ends.flatMap LineEnd.chars) := by
  constructor
  · intro c member
    obtain ⟨e, -, here⟩ := List.mem_flatMap.mp member
    have part : c = '\n' ∨ c = '\r' := by
      cases e <;> simp [LineEnd.chars] at here <;> tauto
    simpa [Record.Reading.isBreak] using part
  · intro none
    obtain ⟨e, more, rfl⟩ := List.exists_cons_of_ne_nil some
    cases e <;> cases none

-- Up to its end the text gives the records before the last one, which is open
-- and has all its fields.
structure Open (text : List Char) (records : List Record.Numbered) (r : Record.Reading) (fields : List String) : Prop where
  ended : r.Ended fields
  last : text.getLast? ≠ some '\r'
  read : ∀ rest, Record.readText {} false 0 (text ++ rest) =
    Record.behind records (Record.readText r true (breaks text) rest)

namespace Open

variable {r : Record.Reading} {record chars : List Char} {values : List String}

theorem header (form : RecordForm columns record) : ∃ r, Open record [] r columns := by
  obtain ⟨r, ended, read⟩ := Record.readText_record form (by decide)
  refine ⟨r, ended, form.last_plain, ?_⟩
  intro rest
  rw [read, Nat.zero_add]
  rfl

theorem next (opened : Open text records r fields) (gap : Gap chars) (form : RecordForm values record)
    (wide : 1 < values.length) : ∃ skipped s, (∀ x ∈ skipped, x.fields = []) ∧
      Open (text ++ chars ++ record) (records ++ ⟨breaks text + 1, fields⟩ :: skipped) s values := by
  obtain ⟨skipped, empty, ends⟩ := Record.readText_ends opened.ended gap.blank gap.filled (breaks text)
  obtain ⟨s, ended, read⟩ := Record.readText_record form wide
  obtain ⟨c, tail, first, solid⟩ := form.head_plain wide
  have before : Apart text chars := fun last => absurd last opened.last
  have after (rest : List Char) : Apart (text ++ chars) (record ++ rest) := by
    intro last
    simp [first, solid]
  have later (rest : List Char) : Apart chars (record ++ rest) := by
    intro last
    simp [first, solid]
  have counted : breaks (text ++ chars ++ record) = breaks text + breaks chars + breaks record := by
    have apart := after []
    rw [List.append_nil] at apart
    rw [breaks_append apart, breaks_append before]
  refine ⟨skipped, s, empty, ended, ?_, ?_⟩
  · intro last
    apply form.last_plain
    rw [List.getLast?_append, first] at last
    rw [first]
    simpa using last
  · intro rest
    rw [List.append_assoc, List.append_assoc, opened.read, ends _ (later rest), Record.behind_behind, read, counted]

theorem read_end (opened : Open text records r fields) :
    Record.readText {} false 0 text = (records ++ [⟨breaks text + 1, fields⟩], .eof) := by
  have read := opened.read []
  rw [List.append_nil, Record.readText_eof opened.ended] at read
  exact read

theorem read_gap (opened : Open text records r fields) (gap : Gap chars) : ∃ skipped : List Record.Numbered,
    (∀ x ∈ skipped, x.fields = []) ∧
      Record.readText {} false 0 (text ++ chars) = (records ++ [⟨breaks text + 1, fields⟩] ++ skipped, .eof) := by
  obtain ⟨skipped, empty, ends⟩ := Record.readText_ends opened.ended gap.blank gap.filled (breaks text)
  refine ⟨skipped, empty, ?_⟩
  have read := ends [] (fun last => by simp) true
  rw [List.append_nil] at read
  rw [opened.read, read]
  simp [Record.behind, Record.readText, Record.readFrom]

end Open

theorem open_written (written : Written text rows) : ∃ records r fields,
    Open text records r fields ∧ Holds (records ++ [⟨breaks text + 1, fields⟩]) rows := by
  induction written with
  | header form =>
    obtain ⟨r, opened⟩ := Open.header form
    exact ⟨[], r, columns, opened, _, [], rfl, rfl⟩
  | @row text record rows row earlier ends apart writable form ih =>
    obtain ⟨records, r, fields, opened, holds⟩ := ih
    obtain ⟨skipped, s, empty, next⟩ := opened.next (gap_ends apart) form (by simp [Row.fields])
    refine ⟨_, s, _, next, ?_⟩
    have longer := (holds.blanks empty).snoc writable (breaks (text ++ ends.flatMap LineEnd.chars ++ record) + 1)
    simpa using longer

-- A catalog is read back from every text that holds it.
theorem readRows_written (written : Written text rows) (ends : List LineEnd) :
    readRows (linesOf true (text ++ ends.flatMap LineEnd.chars) none) = { items := rows } := by
  obtain ⟨records, r, fields, opened, holds⟩ := open_written written
  by_cases bare : ends = []
  · rw [bare, List.flatMap_nil, List.append_nil]
    exact holds.readRows opened.read_end
  · obtain ⟨skipped, empty, read⟩ := opened.read_gap (gap_ends bare)
    exact (holds.blanks empty).readRows read

def goblinSword : Row :=
  { version := "CE 1.9", seed := 0xffffffff, depth := 0, quantity := 1, category := .weapon, kind := "sword",
    enchantment := some (-128), carriedBy := some "goblin \"mystic\",\nshaman" }

def vaultMango : Row :=
  { version := "", seed := 0, depth := 26, quantity := 2, category := .food, kind := "mango", vault := some 255 }

-- The sword's fields stand in quotes, one of them over two lines, and there is
-- an empty line before it.
def twoRows : List Char :=
  joined String.toList columns ++ ['\r', '\n', '\n'] ++ joined quoted goblinSword.fields ++ ['\r'] ++
    joined String.toList vaultMango.fields ++ ['\r', '\n']

theorem readRows_two_rows : readRows (linesOf true twoRows none) =
    { items := [{ goblinSword with line := some 4 }, { vaultMango with line := some 5 }] } := by
  have brief : ∀ v ∈ columns ++ vaultMango.fields ++ goblinSword.fields, v.length ≤ Record.fieldLimit := by
    decide +kernel
  have clear : ((columns ++ vaultMango.fields).all fun v =>
      v.toList.all fun c => decide (c ∉ specials)) = true := by
    decide +kernel
  have plain : ∀ v ∈ columns ++ vaultMango.fields, FieldForm v v.toList := by
    intro v member
    apply FieldForm.bare (brief v (List.mem_append_left _ member))
    intro c here
    exact of_decide_eq_true (List.all_eq_true.mp (List.all_eq_true.mp clear v member) c here)
  have short : ∀ v ∈ goblinSword.fields, FieldForm v (quoted v) := by
    intro v member
    exact FieldForm.quoted (brief v (List.mem_append_right _ member))
  have sword : goblinSword.Writable := by
    constructor <;> decide +kernel
  have mango : vaultMango.Writable := by
    constructor <;> decide +kernel
  have header := Written.header (.joined (fun v member => plain v (List.mem_append_left _ member)) (by decide))
  have first := header.row [.crlf, .lf] (by decide) sword (.joined short (by simp [Row.fields]))
  have second := first.row [.cr] (by decide) mango
    (.joined (fun v member => plain v (List.mem_append_right columns member)) (by simp [Row.fields]))
  have read := readRows_written second [.crlf]
  refine Eq.trans read ?_
  decide +kernel

end SeedSearch.Catalog
