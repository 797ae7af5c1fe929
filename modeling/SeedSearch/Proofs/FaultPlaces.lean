import SeedSearch.Proofs.InputFaults
import SeedSearch.Proofs.RecordGrammar

namespace SeedSearch
open Catalog (FormatError Malformed Misread Row RowAt)

namespace Catalog

theorem FormatError.message_placed {e : FormatError} {path : Path} {n : Nat}
    (placed : e.place = { path := some path, line := some (n : Int) }) :
    e.message = path.text ++ ":" ++ toString n ++ ": " ++ e.reason.message := by
  have label : e.place.label = path.text ++ ":" ++ toString n := by
    rw [placed]
    rfl
  have seen : e.place.label ≠ "" := by
    rw [label]
    simp
  rw [message, Place.mark, if_neg seen, label]

theorem Row.object_format {r : Row} {e : FormatError} (object : r.object = .error (.format e)) :
    r.describe = .error (.malformed e.reason) ∧ e.place = { line := r.line } := by
  unfold Row.object at object
  split at object
  · cases object
  · rename_i reason described
    cases object
    exact ⟨described, rfl⟩
  · cases object

theorem RowAt.line {lines : Feed (List Char)} {r : Row} {n : Nat} (here : RowAt lines r n) :
    r.line = some (n : Int) := by
  obtain ⟨-, k, fields, -, parsed⟩ := here
  exact (Row.row_of_ofFields parsed).2

end Catalog

namespace Query

variable {q : Query} {r : Row} {lines : Feed (List Char)} {e : FormatError}

structure Refuses (q : Query) (r : Row) (reason : Malformed) : Prop where
  bounds : q.inBounds r = true
  accepted : ∃ c ∈ q.criteria, c.accepts r = true
  unknown : r.describe = .error (.malformed reason)

theorem scan_names_line (failed : (q.scan (Catalog.readRows lines)).committed = .error (.format e)) :
    lines.fault = some (.format e) ∨ ∃ n : Nat, e.place = { line := some n } ∧
      (Misread lines e.reason n ∨ ∃ r, RowAt lines r n ∧ r.line = some n ∧ q.Refuses r e.reason) := by
  rcases scan_fault failed with read | ⟨r, inside, bounds, accepted, object⟩
  · refine (Catalog.readRows_fault read).imp_right ?_
    rintro ⟨reason, n, same, misread⟩
    cases same
    exact ⟨n, rfl, Or.inl misread⟩
  · obtain ⟨unknown, placed⟩ := Row.object_format object
    obtain ⟨n, here⟩ := Catalog.rowAt_of_mem inside
    exact Or.inr ⟨n, here.line ▸ placed, Or.inr ⟨r, here, here.line, bounds, accepted, unknown⟩⟩

-- Only the path is added on the way out of the file.
theorem scanFile_names_place (q : Query) (tree : Node) (e : Encoding) (path : Path) (f : Fault) (error : FormatError)
    (failed : (q.scanFile path (tree.rows e path)).committed = .error f) (raised : f.inFile path = .format error) :
    ∃ octets text broken lines, ∃ n : Nat, tree.read path = .ok octets ∧ e.decode octets = (text, broken) ∧
      lines = Catalog.linesOf true text (broken.map .decoding) ∧
      f = .format { reason := error.reason, place := { line := some n } } ∧
      error.place = { path := some path, line := some n } ∧
      error.message = path.text ++ ":" ++ toString n ++ ": " ++ error.reason.message ∧
      (Misread lines error.reason n ∨ ∃ r, RowAt lines r n ∧ r.line = some n ∧ q.Refuses r error.reason) ∧
      ∀ upto, upto <+: lines.items → upto.flatten <+: text ∧ Catalog.lineCount upto.flatten = upto.length := by
  cases opened : tree.rows e path with
  | error refusal =>
    rw [opened] at failed
    cases failed
    cases raised
  | ok feed =>
    rw [opened] at failed
    obtain ⟨octets, text, broken, read, decoded, rfl⟩ := Node.rows_lines opened
    cases f with
    | access refusal path => cases raised
    | decoding fault => cases raised
    | tooLong long => cases raised
    | format inner =>
      cases raised
      rcases scan_names_line failed with lost | ⟨n, placed, found⟩
      · -- Where the octets are no text, that is another fault.
        obtain ⟨fault, -, same⟩ := Option.map_eq_some_iff.mp (Catalog.linesOf_fault lost)
        cases same
      · have whole : (inner.inFile path).place = { path := some path, line := some (n : Int) } := by
          simp [FormatError.inFile, placed]
        refine ⟨octets, text, broken, _, n, read, decoded, rfl, ?_, whole, FormatError.message_placed whole, found, ?_⟩
        · rw [← placed]
          rfl
        · intro upto first
          exact Catalog.linesOf_counts first

-- Behind a blank line, the sword's record takes two lines.
def swordTree : Node :=
  .folder true [("c.csv", .file (Encoding.Utf8.encode
    "dungeon_version,seed,depth,,,,,,,,,,\n\r\n\"a\nb\",1,2,1,weapon,sword,,,,,,,\r".toList))]

def swordPath : Path := { parts := ["c.csv"] }

def swords : Query := .ofCriteria {} [{ category := .weapon }]

theorem sword_named_on_line_four :
    ∃ f error, (swords.scanFile swordPath (swordTree.rows .utf8 swordPath)).committed = .error f ∧
      f.inFile swordPath = .format error ∧ error.message = "c.csv:4: weapon row without enchantment" := by
  have failed : (swords.scanFile swordPath (swordTree.rows .utf8 swordPath)).committed =
      .error (.format { reason := .noEnchantment .weapon, place := { line := some 4 } }) := by
    decide +kernel
  obtain ⟨octets, text, broken, lines, n, -, -, -, same, -, message, -⟩ :=
    scanFile_names_place swords swordTree .utf8 swordPath _ _ failed rfl
  have four : (4 : Int) = n := by simpa [FormatError.inFile] using same
  obtain rfl : n = 4 := by omega
  exact ⟨_, _, failed, rfl, message.trans (by decide)⟩

end Query

end SeedSearch
